import Mathlib.Data.List.Sort
import Zentalk.Lib.FileTree
import Zentalk.Protocol.Keys

/-!
# Copies of directories

`copyDir` of `migration.go`. Every operation may fail, and leave something behind: `Faults`.
`copyDir_grown` is what a copy may change, `copyDir_laid` what it writes.
-/

namespace Zentalk.Mesh

open Wire Files List Bool

/-! ## Operations -/

/-- A path from the root. -/
abbrev Path := List Bytes

abbrev Disk := FileTree Bytes Bytes

inductive FileError
  | notExist (path : Path)
  | notDirectory (path : Path)
  | isDirectory (path : Path)
  | other (text : Bytes)

/-- The operations that fail. `mkdirAll` has made the first directories of the path then, and
`writeFile` may have opened the file and written some bytes. -/
structure Faults where
  stat : Path → Option Bytes
  removeAll : Path → Option ((Path → Bool) × Bytes)
  mkdirAll : Path → Option (ℕ × Bytes)
  readDir : Path → Option Bytes
  readFile : Path → Option Bytes
  writeFile : Path → Option (Option ℕ × Bytes)

/-- Nothing fails but for the state of the files. -/
def Faults.none : Faults :=
  ⟨fun _ => .none, fun _ => .none, fun _ => .none, fun _ => .none, fun _ => .none, fun _ => .none⟩

/-- `os.MkdirAll`. -/
def mkdirAll (faults : Faults) (disk : Disk) (path : Path) : Disk × Except FileError Unit :=
  match faults.mkdirAll path with
  | some (made, err) => ((disk.mkdirAll (path.take made)).getD disk, .error (.other err))
  | none =>
    match disk.mkdirAll path with
    | none => (disk, .error (.notDirectory path))
    | some disk' => (disk', .ok ())

/-- `os.DirEntry`. -/
structure DirEntry where
  name : Bytes
  isDir : Bool

/-- `os.ReadDir`, which sorts by name. -/
def readDir (faults : Faults) (disk : Disk) (path : Path) : Except FileError (List DirEntry) :=
  match faults.readDir path with
  | some err => .error (.other err)
  | none =>
    match disk.node path with
    | none => .error (.notExist path)
    | some (.file _) => .error (.notDirectory path)
    | some .dir =>
      .ok (((disk.children path).insertionSort (· ≤ ·)).map fun name =>
        ⟨name, disk.isDir (path ++ [name])⟩)

/-- `os.ReadFile`. -/
def readFile (faults : Faults) (disk : Disk) (path : Path) : Except FileError Bytes :=
  match faults.readFile path with
  | some err => .error (.other err)
  | none =>
    match disk.node path with
    | none => .error (.notExist path)
    | some .dir => .error (.isDirectory path)
    | some (.file data) => .ok data

/-- `os.WriteFile`. -/
def writeFile (faults : Faults) (disk : Disk) (path : Path) (data : Bytes) :
    Disk × Except FileError Unit :=
  match faults.writeFile path with
  | some (none, err) => (disk, .error (.other err))
  | some (some written, err) =>
    ((disk.writeFile path (data.take written)).getD disk, .error (.other err))
  | none =>
    match disk.writeFile path data with
    | none => (disk, .error (.isDirectory path))
    | some disk' => (disk', .ok ())

/-! ## The copy -/

/-- `filepath.Ext` of a name: what follows the last dot, with the dot. -/
def ext : Bytes → Bytes
  | [] => []
  | b :: rest => if ext rest ≠ [] then ext rest else if b = 46 then b :: rest else []

def skipped (name : Bytes) : Bool :=
  name = asciiBytes ".backup" || ext name = asciiBytes ".backup" || name = asciiBytes "backup"

def copyFile (faults : Faults) (disk : Disk) (src dst : Path) : Disk × Except FileError Unit :=
  match readFile faults disk src with
  | .error err => (disk, .error err)
  | .ok data => writeFile faults disk dst data

/-- The body of the loop in `copyDir`. -/
def copyEntry (faults : Faults)
    (copyDir : Disk → Path → Path → Option (Disk × Except FileError Unit)) (src dst : Path)
    (entry : DirEntry) (disk : Disk) : Option (Disk × Except FileError Unit) :=
  if entry.isDir then
    if skipped entry.name then some (disk, .ok ())
    else copyDir disk (src ++ [entry.name]) (dst ++ [entry.name])
  else some (copyFile faults disk (src ++ [entry.name]) (dst ++ [entry.name]))

/-- The loop in `copyDir`. -/
def copyEntries (faults : Faults)
    (copyDir : Disk → Path → Path → Option (Disk × Except FileError Unit)) (src dst : Path) :
    List DirEntry → Disk → Option (Disk × Except FileError Unit)
  | [], disk => some (disk, .ok ())
  | entry :: rest, disk =>
    match copyEntry faults copyDir src dst entry disk with
    | none => none
    | some (disk, .error err) => some (disk, .error err)
    | some (disk, .ok ()) => copyEntries faults copyDir src dst rest disk

/-- `copyDir`, with the number of nested calls that it may make. -/
def copyDir (faults : Faults) : ℕ → Disk → Path → Path → Option (Disk × Except FileError Unit)
  | 0, _, _, _ => none
  | depth + 1, disk, src, dst =>
    match mkdirAll faults disk dst with
    | (disk, .error err) => some (disk, .error err)
    | (disk, .ok ()) =>
      match readDir faults disk src with
      | .error err => some (disk, .error err)
      | .ok entries => copyEntries faults (copyDir faults depth) src dst entries disk

/-! ## What a copy changes -/

section

open FileTree

variable {faults : Faults} {disk disk' : Disk} {src dst : Path} {depth : ℕ}
  {out : Disk × Except FileError Unit}

theorem mkdirAll_grown (hready : Ready disk dst) : Grown dst disk (mkdirAll faults disk dst).1 := by
  rw [mkdirAll]
  split
  · next made err _ =>
    cases hmade : FileTree.mkdirAll disk (dst.take made) with
    | none => exact .refl dst disk
    | some disk' =>
      refine grown_mkdirAll hmade fun q hq => ?_
      rcases eq_or_ne q dst with rfl | hne
      · exact .inr (prefix_refl q)
      · exact .inl (hready q (hq.trans ( take_prefix made dst)) hne)
  · split
    · exact .refl dst disk
    · next disk' hmade =>
      refine grown_mkdirAll hmade fun q hq => ?_
      rcases eq_or_ne q dst with rfl | hne
      · exact .inr (prefix_refl q)
      · exact .inl (hready q hq hne)

theorem mkdirAll_dir (hok : mkdirAll faults disk dst = (disk', .ok ())) {q : Path}
    (hq : q <+: dst) : disk'.node q = some .dir := by
  rw [mkdirAll] at hok
  split at hok
  · cases hok
  · split at hok
    · cases hok
    · next hmade =>
      cases hok
      rw [node_mkdirAll hmade, if_pos hq]

theorem copyFile_grown : Grown dst disk (copyFile faults disk src dst).1 := by
  rw [copyFile]
  split
  · exact .refl dst disk
  · next data _ =>
    rw [writeFile]
    split
    · exact .refl dst disk
    · next written err _ =>
      cases hwritten : FileTree.writeFile disk dst (data.take written) with
      | none => exact .refl dst disk
      | some disk' => exact grown_writeFile hwritten (prefix_refl dst)
    · split
      · exact .refl dst disk
      · next hwritten => exact grown_writeFile hwritten (prefix_refl dst)

/-- What is assumed of the nested calls. -/
def GrowsOnly (copy : Disk → Path → Path → Option (Disk × Except FileError Unit)) : Prop :=
  ∀ disk src dst out, Ready disk dst → copy disk src dst = some out → Grown dst disk out.1

variable {copy : Disk → Path → Path → Option (Disk × Except FileError Unit)} {entry : DirEntry}

theorem copyEntry_grown (hcopy : GrowsOnly copy) (hready : Ready disk (dst ++ [entry.name]))
    (h : copyEntry faults copy src dst entry disk = some out) :
    Grown (dst ++ [entry.name]) disk out.1 := by
  rw [copyEntry] at h
  split at h
  · split at h
    · cases h
      exact .refl _ disk
    · exact hcopy _ _ _ _ hready h
  · cases h
    exact copyFile_grown

variable {entries : List DirEntry}

theorem copyEntries_grown (hcopy : GrowsOnly copy)
    (hready : Ready disk dst) (hdir : disk.node dst = some .dir)
    (h : copyEntries faults copy src dst entries disk = some out) : Grown dst disk out.1 := by
  induction entries generalizing disk with
  | nil =>
    cases h
    exact .refl dst disk
  | cons entry rest ih =>
    rw [copyEntries] at h
    split at h
    · cases h
    · next disk₁ err hentry =>
      cases h
      exact (copyEntry_grown hcopy (hready.below hdir) hentry).below
    · next disk₁ hentry =>
      have hgrown := (copyEntry_grown hcopy (hready.below hdir) hentry).below
      exact hgrown.trans (ih (hready.grown hgrown) (hgrown.dir hdir) h)

/-- A copy changes nothing outside its destination, and no kind of node there. -/
theorem copyDir_grown : GrowsOnly (copyDir faults depth) := by
  induction depth with
  | zero =>
    intro disk src dst out _ h
    cases h
  | succ depth ih =>
    intro disk src dst out hready h
    rw [copyDir] at h
    have hgrown : Grown dst disk (mkdirAll faults disk dst).1 := mkdirAll_grown hready
    split at h
    · next disk₁ err hmade =>
      cases h
      rw [hmade] at hgrown
      exact hgrown
    · next disk₁ hmade =>
      rw [hmade] at hgrown
      split at h
      · cases h
        exact hgrown
      · exact hgrown.trans (copyEntries_grown ih (hready.grown hgrown)
          (mkdirAll_dir hmade (prefix_refl dst)) h)

/-! ## A destination inside the source -/

theorem readDir_ok (h : readDir faults disk src = .ok entries) :
    (entries.map DirEntry.name).Nodup ∧ ∀ entry, entry ∈ entries ↔
      disk.node (src ++ [entry.name]) ≠ none ∧ entry.isDir = disk.isDir (src ++ [entry.name]) := by
  rw [readDir] at h
  split at h
  · cases h
  · split at h
    · cases h
    · cases h
    · cases h
      constructor
      · have hnames : DirEntry.name ∘ (fun name => ⟨name, disk.isDir (src ++ [name])⟩) = id := rfl
        rw [map_map, hnames, map_id]
        exact (perm_insertionSort _ _).nodup_iff.mpr nodup_children
      · rintro ⟨name, isDir⟩
        rw [mem_map]
        constructor
        · rintro ⟨_, hname, ⟨⟩⟩
          exact ⟨mem_children.mp ((mem_insertionSort _).mp hname), rfl⟩
        · rintro ⟨hnode, hisDir⟩
          exact ⟨name, (mem_insertionSort _).mpr (mem_children.mpr hnode),
            congrArg (DirEntry.mk name) hisDir.symm⟩

theorem exists_readDir (hdir : disk.node src = some .dir) :
    ∃ entries, readDir .none disk src = .ok entries := by
  rw [readDir, hdir]
  exact ⟨_, rfl⟩

/-- Without failures a directory is made where there is no file. -/
theorem exists_made (hready : Ready disk dst) (hfile : ∀ x, disk.node dst = some x → x = .dir) :
    ∃ disk₁, mkdirAll .none disk dst = (disk₁, .ok ()) ∧
      ∀ p, disk₁.node p = if p = dst then some .dir else disk.node p := by
  obtain ⟨disk₁, hmade, hnodes⟩ := exists_mkdirAll hready hfile
  refine ⟨disk₁, ?_, hnodes⟩
  rw [mkdirAll, hmade]
  rfl

theorem copyEntry_of_ok (h : copyEntries faults copy src dst entries disk = some (disk', .ok ()))
    (hmem : entry ∈ entries) :
    ∃ disk₀ disk₁, copyEntry faults copy src dst entry disk₀ = some (disk₁, .ok ()) := by
  induction entries generalizing disk with
  | nil => cases hmem
  | cons first rest ih =>
    rw [copyEntries] at h
    split at h
    · cases h
    · cases h
    · next disk₁ hentry =>
      rcases mem_cons.mp hmem with rfl | hmem
      · exact ⟨disk, disk₁, hentry⟩
      · exact ih h hmem

/-- The destination is made before the source is read, so a destination inside the source is found
there, and so in each nested call. -/
theorem copyDir_inside {q : Path} (hne : q ≠ []) (hnames : ∀ name ∈ q, skipped name = false) :
    copyDir faults depth disk src (src ++ q) ≠ some (disk', .ok ()) := by
  induction depth generalizing disk disk' src q with
  | zero =>
    intro h
    cases h
  | succ depth ih =>
    intro h
    obtain ⟨name, rest, rfl⟩ := exists_cons_of_ne_nil hne
    rw [copyDir] at h
    split at h
    · cases h
    · next disk₁ hmade =>
      split at h
      · cases h
      · next entries hread =>
        have hdir : disk₁.node (src ++ [name]) = some .dir := by
          refine mkdirAll_dir hmade ?_
          rw [append_cons src name rest]
          exact prefix_append _ _
        have hmem : ⟨name, true⟩ ∈ entries := by
          refine ((readDir_ok hread).2 _).mpr ⟨?_, (isDir_iff.mpr hdir).symm⟩
          rw [hdir]
          exact Option.some_ne_none _
        obtain ⟨disk₀, disk₂, hentry⟩ := copyEntry_of_ok h hmem
        rw [copyEntry, if_pos rfl, hnames name mem_cons_self, if_neg Bool.false_ne_true]
          at hentry
        -- The destination of the nested call is below its source by the rest and the name again.
        have hrotated : src ++ name :: rest ++ [name] = src ++ [name] ++ (rest ++ [name]) := by simp
        rw [hrotated] at hentry
        refine ih (by simp) (fun name' hname' => hnames name' ?_) hentry
        rw [mem_append, mem_singleton] at hname'
        rw [mem_cons]
        exact hname'.symm

/-- A copy of an empty directory to a path in it never ends. -/
theorem copyDir_endless (hdir : disk.node src = some .dir)
    (hempty : ∀ name, disk.node (src ++ [name]) = none) {name : Bytes}
    (hname : skipped name = false) :
    copyDir .none depth disk src (src ++ [name]) = none := by
  induction depth generalizing disk src with
  | zero => rfl
  | succ depth ih =>
    have hready : Ready disk (src ++ [name]) :=
      (ready_of_node (by rw [hdir]; exact Option.some_ne_none _)).below hdir
    obtain ⟨disk₁, hmkdir, hnodes⟩ := exists_made hready fun x hx => by
      rw [hempty name] at hx
      cases hx
    obtain ⟨entries, hread⟩ : ∃ entries, readDir .none disk₁ src = .ok entries :=
      exists_readDir (by rw [hnodes, if_neg (by simp), hdir])
    obtain ⟨-, hmem⟩ := readDir_ok hread
    have hchild : disk₁.node (src ++ [name]) = some .dir := by rw [hnodes, if_pos rfl]
    have honly : ∀ entry ∈ entries, entry = ⟨name, true⟩ := by
      rintro ⟨name', isDir⟩ hentry
      obtain ⟨hnode, hisDir⟩ := (hmem _).mp hentry
      rw [hnodes] at hnode
      split at hnode
      · next heq =>
        obtain rfl : name' = name := by simpa using heq
        exact congrArg (DirEntry.mk name') (hisDir.trans (isDir_iff.mpr hchild))
      · exact absurd (hempty name') hnode
    have hnested : copyDir .none depth disk₁ (src ++ [name]) (src ++ [name] ++ [name]) = none := by
      refine ih hchild fun name' => ?_
      rw [hnodes, if_neg (by simp)]
      by_contra hbelow
      have hparent := disk.parent _ _ hbelow
      rw [hempty name] at hparent
      cases hparent
    rw [copyDir, hmkdir]
    dsimp only
    rw [hread]
    cases entries with
    | nil =>
      have hentry : ⟨name, true⟩ ∈ ([] : List DirEntry) :=
        (hmem _).mpr ⟨by rw [hchild]; exact Option.some_ne_none _, (isDir_iff.mpr hchild).symm⟩
      cases hentry
    | cons entry rest =>
      rw [honly entry mem_cons_self]
      dsimp only
      rw [copyEntries, copyEntry, if_pos rfl, hname, if_neg Bool.false_ne_true, hnested]

end

/-! ## A destination apart from the source -/

/-- No directory on the way from `src` is skipped. -/
def kept (disk : Disk) : Path → Path → Bool
  | _, [] => true
  | src, name :: q => !(disk.isDir (src ++ [name]) && skipped name) && kept disk (src ++ [name]) q

/-- The tree at `src` without the directories that are skipped. -/
def backupOf (disk : Disk) (src q : Path) : Option (Node Bytes) :=
  if kept disk src q then disk.node (src ++ q) else none

/-- The files are still as they were in the part of the tree that is read. -/
structure Agrees (t u : Disk) (src : Path) : Prop where
  node : ∀ q, kept t src q = true → u.node (src ++ q) = t.node (src ++ q)
  dir : ∀ p, t.node p = some .dir → u.node p = some .dir

/-- The part of the tree at `src` that is read has nothing to do with `dst`. -/
def Apart (t : Disk) (src dst : Path) : Prop := ∀ q r, kept t src q = true → src ++ q ≠ dst ++ r

section

open FileTree

variable {t u u' : Disk} {src dst q : Path} {name : Bytes} {x : Node Bytes}

theorem kept_cons :
    kept t src (name :: q) = true ↔
      (t.isDir (src ++ [name]) = true → skipped name = false) ∧
        kept t (src ++ [name]) q = true := by
  rw [kept, and_eq_true, not_eq_true', and_eq_false_imp]

theorem unskipped_of_file (hfile : t.isDir (src ++ [name]) = false) :
    t.isDir (src ++ [name]) = true → skipped name = false := by
  rw [hfile]
  intro h
  cases h

theorem backupOf_some :
    backupOf t src q = some x ↔ kept t src q = true ∧ t.node (src ++ q) = some x := by
  rw [backupOf, Option.ite_none_right_eq_some]

theorem backupOf_cons
    (hkept : t.isDir (src ++ [name]) = true → skipped name = false) :
    backupOf t src (name :: q) = some x ↔ backupOf t (src ++ [name]) q = some x := by
  rw [backupOf_some, backupOf_some, kept_cons, append_cons src name q]
  exact ⟨fun h => ⟨h.1.2, h.2⟩, fun h => ⟨⟨hkept, h.1⟩, h.2⟩⟩

theorem Agrees.below (h : Agrees t u src)
    (hkept : t.isDir (src ++ [name]) = true → skipped name = false) :
    Agrees t u (src ++ [name]) := by
  refine ⟨fun q hq => ?_, h.dir⟩
  rw [← append_cons]
  exact h.node (name :: q) (kept_cons.mpr ⟨hkept, hq⟩)

theorem Apart.below (h : Apart t src dst)
    (hkept : t.isDir (src ++ [name]) = true → skipped name = false) :
    Apart t (src ++ [name]) (dst ++ [name]) := by
  intro q r hq
  rw [← append_cons, ← append_cons]
  exact h (name :: q) (name :: r) (kept_cons.mpr ⟨hkept, hq⟩)

theorem Agrees.grown (h : Agrees t u src) (hapart : Apart t src dst) (hgrown : Grown dst u u') :
    Agrees t u' src := by
  refine ⟨fun q hq => ?_, fun p hp => hgrown.dir (h.dir p hp)⟩
  rw [hgrown.frame, h.node q hq]
  rintro ⟨r, hr⟩
  exact hapart q r hq hr.symm

theorem Agrees.child (h : Agrees t u src) (name : Bytes) :
    (u.node (src ++ [name]) ≠ none ↔ t.node (src ++ [name]) ≠ none) ∧
      u.isDir (src ++ [name]) = t.isDir (src ++ [name]) := by
  rcases eq_false_or_eq_true (t.isDir (src ++ [name])) with hdir | hfile
  · have ht := isDir_iff.mp hdir
    have hu := h.dir _ ht
    rw [hdir, isDir_iff.mpr hu, hu, ht]
    exact ⟨.rfl, rfl⟩
  · have hsame : u.node (src ++ [name]) = t.node (src ++ [name]) :=
      h.node [name] (kept_cons.mpr ⟨unskipped_of_file hfile, rfl⟩)
    rw [FileTree.isDir, FileTree.isDir, hsame]
    exact ⟨.rfl, rfl⟩

/-- The nodes of the copy of an entry. -/
def Placed (t : Disk) (src dst : Path) (name : Bytes) (p : Path) (x : Node Bytes) : Prop :=
  ∃ q, p = dst ++ name :: q ∧ backupOf t src (name :: q) = some x

def Compatible (t u : Disk) (src dst : Path) (name : Bytes) : Prop :=
  ∀ q x y, u.node (dst ++ name :: q) = some x → backupOf t src (name :: q) = some y →
    x.isDir = y.isDir

def CopiesAll (t : Disk) (depth : ℕ)
    (copy : Disk → Path → Path → Option (Disk × Except FileError Unit)) : Prop :=
  ∀ u src dst, Agrees t u src → t.node src = some .dir →
    (∀ q, t.node (src ++ q) ≠ none → q.length < depth) → Apart t src dst → Ready u dst →
    (∀ q x y, u.node (dst ++ q) = some x → backupOf t src q = some y → x.isDir = y.isDir) →
    ∃ u', copy u src dst = some (u', .ok ()) ∧
      Laid (fun p x => ∃ q, p = dst ++ q ∧ backupOf t src q = some x) u u'

theorem placed_file {data : Bytes} (hfile : t.node (src ++ [name]) = some (.file data)) (p : Path)
    (x : Node Bytes) : p = dst ++ [name] ∧ x = .file data ↔ Placed t src dst name p x := by
  have hkept : t.isDir (src ++ [name]) = true → skipped name = false :=
    unskipped_of_file (by rw [FileTree.isDir, hfile]; rfl)
  constructor
  · rintro ⟨rfl, rfl⟩
    exact ⟨[], rfl, backupOf_some.mpr ⟨kept_cons.mpr ⟨hkept, rfl⟩, hfile⟩⟩
  · rintro ⟨q, rfl, hx⟩
    obtain ⟨-, hnode⟩ := backupOf_some.mp hx
    cases q with
    | nil =>
      rw [hfile] at hnode
      exact ⟨rfl, (Option.some.inj hnode).symm⟩
    | cons name' q =>
      have hdir : t.node (src ++ [name]) = some .dir := by
        refine dir_above (by rw [hnode]; exact Option.some_ne_none x) ?_ (by simp)
        exact ⟨name' :: q, by simp⟩
      rw [hfile] at hdir
      cases hdir

theorem copyFile_laid {data : Bytes} (hfile : t.node (src ++ [name]) = some (.file data))
    (hsame : u.node (src ++ [name]) = t.node (src ++ [name])) (hdir : u.node dst = some .dir)
    (hcompatible : Compatible t u src dst name) :
    ∃ u', copyFile .none u (src ++ [name]) (dst ++ [name]) = (u', .ok ()) ∧
      Laid (Placed t src dst name) u u' := by
  have hfree : u.isDir (dst ++ [name]) = false := by
    cases hx : u.node (dst ++ [name]) with
    | none => rw [FileTree.isDir, hx, Option.any_none]
    | some x =>
      obtain ⟨q, hq, hplaced⟩ := (placed_file hfile (dst ++ [name]) _).mp ⟨rfl, rfl⟩
      obtain rfl : q = [] := by simpa using hq
      rw [FileTree.isDir, hx, Option.any_some, hcompatible [] x _ hx hplaced]
      rfl
  obtain ⟨u', hu'⟩ := exists_writeFile data hdir hfree
  refine ⟨u', ?_, Laid.congr ?_ (placed_file hfile)⟩
  · have hread : readFile .none u (src ++ [name]) = .ok data := by
      rw [readFile, hsame, hfile]
      rfl
    rw [copyFile, hread]
    dsimp only
    rw [writeFile, hu']
    rfl
  · refine ⟨?_, fun p hp => ?_⟩
    · rintro p x ⟨rfl, rfl⟩
      rw [node_writeFile hu', if_pos rfl]
    · rw [node_writeFile hu', if_neg]
      rintro rfl
      exact hp _ ⟨rfl, rfl⟩

variable {depth : ℕ} {copy : Disk → Path → Path → Option (Disk × Except FileError Unit)}

theorem copyEntry_laid (hcopy : CopiesAll t depth copy) (hagrees : Agrees t u src)
    (hdepth : ∀ q, t.node (src ++ q) ≠ none → q.length < depth + 1) (hapart : Apart t src dst)
    (hready : Ready u dst) (hdir : u.node dst = some .dir) {entry : DirEntry}
    (hnode : t.node (src ++ [entry.name]) ≠ none)
    (hisDir : entry.isDir = t.isDir (src ++ [entry.name]))
    (hcompatible : Compatible t u src dst entry.name) :
    ∃ u', copyEntry .none copy src dst entry u = some (u', .ok ()) ∧
      Laid (Placed t src dst entry.name) u u' := by
  rw [copyEntry, hisDir]
  match hentry : t.node (src ++ [entry.name]) with
  | none => exact absurd hentry hnode
  | some (.file data) =>
    have hfile : t.isDir (src ++ [entry.name]) = false := by
      rw [FileTree.isDir, hentry]
      rfl
    have hsame := hagrees.node [entry.name] (kept_cons.mpr ⟨unskipped_of_file hfile, rfl⟩)
    obtain ⟨u', hcopied, hlaid⟩ := copyFile_laid hentry hsame hdir hcompatible
    rw [hfile, if_neg Bool.false_ne_true, hcopied]
    exact ⟨u', rfl, hlaid⟩
  | some .dir =>
    rw [isDir_iff.mpr hentry, if_pos rfl]
    cases hskipped : skipped entry.name with
    | true =>
      refine ⟨u, rfl, ?_, fun p _ => rfl⟩
      rintro p x ⟨q, -, hx⟩
      have hkept := (kept_cons.mp (backupOf_some.mp hx).1).1 (isDir_iff.mpr hentry)
      rw [hskipped] at hkept
      cases hkept
    | false =>
      have hkept : t.isDir (src ++ [entry.name]) = true → skipped entry.name = false :=
        fun _ => hskipped
      have hdepth' : ∀ q, t.node (src ++ [entry.name] ++ q) ≠ none → q.length < depth := by
        intro q hq
        rw [← append_cons] at hq
        have hlt := hdepth _ hq
        rw [length_cons] at hlt
        omega
      have hcompatible' : ∀ q x y, u.node (dst ++ [entry.name] ++ q) = some x →
          backupOf t (src ++ [entry.name]) q = some y → x.isDir = y.isDir := by
        intro q x y hx hy
        rw [← append_cons] at hx
        exact hcompatible q x y hx ((backupOf_cons hkept).mpr hy)
      obtain ⟨u', hcopied, hlaid⟩ := hcopy u (src ++ [entry.name]) (dst ++ [entry.name])
        (hagrees.below hkept) hentry hdepth' (hapart.below hkept) (hready.below hdir) hcompatible'
      refine ⟨u', hcopied, hlaid.congr fun p x => exists_congr fun q => ?_⟩
      rw [backupOf_cons hkept, append_cons dst entry.name q]

variable {entries : List DirEntry}

theorem copyEntries_laid (hcopy : CopiesAll t depth copy) (hgrows : GrowsOnly copy)
    (hagrees : Agrees t u src) (hdepth : ∀ q, t.node (src ++ q) ≠ none → q.length < depth + 1)
    (hapart : Apart t src dst) (hready : Ready u dst) (hdir : u.node dst = some .dir)
    (hnodup : (entries.map DirEntry.name).Nodup)
    (hentries : ∀ entry ∈ entries, t.node (src ++ [entry.name]) ≠ none ∧
      entry.isDir = t.isDir (src ++ [entry.name]))
    (hcompatible : ∀ entry ∈ entries, Compatible t u src dst entry.name) :
    ∃ u', copyEntries .none copy src dst entries u = some (u', .ok ()) ∧
      Laid (fun p x => ∃ entry ∈ entries, Placed t src dst entry.name p x) u u' := by
  induction entries generalizing u with
  | nil => exact ⟨u, rfl, fun p x ⟨entry, hmem, _⟩ => absurd hmem not_mem_nil, fun p _ => rfl⟩
  | cons entry rest ih =>
    rw [map_cons, nodup_cons] at hnodup
    obtain ⟨hnode, hisDir⟩ := hentries entry mem_cons_self
    obtain ⟨u₁, hentry, hlaid⟩ := copyEntry_laid hcopy hagrees hdepth hapart hready hdir hnode
      hisDir (hcompatible entry mem_cons_self)
    have hgrown : Grown (dst ++ [entry.name]) u u₁ :=
      copyEntry_grown hgrows (hready.below hdir) hentry
    have hother : ∀ entry' ∈ rest, entry'.name ≠ entry.name := by
      rintro entry' hmem hname
      exact hnodup.1 (hname ▸ mem_map_of_mem hmem)
    have hcompatible' : ∀ entry' ∈ rest, Compatible t u₁ src dst entry'.name := by
      intro entry' hmem q x y hx
      rw [hgrown.frame] at hx
      · exact hcompatible entry' (mem_cons_of_mem _ hmem) q x y hx
      · rintro ⟨r, hr⟩
        rw [← append_cons, append_cancel_left_eq, List.cons.injEq] at hr
        exact hother entry' hmem hr.1.symm
    obtain ⟨u₂, hrest, hlaid'⟩ := ih (hagrees.grown hapart hgrown.below)
      (hready.grown hgrown) (hgrown.dir hdir) hnodup.2
      (fun entry' hmem => hentries entry' (mem_cons_of_mem _ hmem)) hcompatible'
    refine ⟨u₂, ?_, (hlaid.trans hlaid' ?_).congr fun p x => ?_⟩
    · rw [copyEntries, hentry]
      exact hrest
    · rintro p x x' ⟨q, rfl, -⟩ ⟨entry', hmem, q', heq, -⟩
      rw [append_cancel_left_eq, List.cons.injEq] at heq
      exact absurd heq.1.symm (hother entry' hmem)
    · rw [exists_mem_cons_iff]

theorem child_of_backupOf (h : backupOf t src (name :: q) = some x) :
    t.node (src ++ [name]) ≠ none := by
  have hnode := (backupOf_some.mp h).2
  cases q with
  | nil =>
    rw [hnode]
    exact Option.some_ne_none x
  | cons name' q =>
    rw [dir_above (by rw [hnode]; exact Option.some_ne_none x)
      ⟨name' :: q, by simp⟩ (by simp)]
    exact Option.some_ne_none _

theorem placed_iff {p : Path} (hroot : backupOf t src [] = some .dir)
    (hall : ∀ name q x, backupOf t src (name :: q) = some x →
      ∃ entry ∈ entries, entry.name = name) :
    (∃ q, p = dst ++ q ∧ backupOf t src q = some x) ↔
      (p = dst ∧ x = .dir) ∨ ∃ entry ∈ entries, Placed t src dst entry.name p x := by
  constructor
  · rintro ⟨q, rfl, hx⟩
    cases q with
    | nil =>
      rw [hroot] at hx
      exact .inl ⟨append_nil dst, (Option.some.inj hx).symm⟩
    | cons name q =>
      obtain ⟨entry, hentry, rfl⟩ := hall name q x hx
      exact .inr ⟨entry, hentry, q, rfl, hx⟩
  · rintro (⟨rfl, rfl⟩ | ⟨entry, -, q, rfl, hx⟩)
    · exact ⟨[], (append_nil p).symm, hroot⟩
    · exact ⟨entry.name :: q, rfl, hx⟩

/-- Without failures a copy ends and writes the tree without what is skipped, if its destination is
apart from the source and compatible. -/
theorem copyDir_laid : CopiesAll t depth (copyDir .none depth) := by
  induction depth with
  | zero =>
    intro u src dst _ hsrc hdepth
    exact absurd (hdepth [] (by rw [append_nil, hsrc]; exact Option.some_ne_none _))
      (Nat.lt_irrefl 0)
  | succ depth ih =>
    intro u src dst hagrees hsrc hdepth hapart hready hcompatible
    have hroot : backupOf t src [] = some .dir :=
      backupOf_some.mpr ⟨rfl, by rw [append_nil, hsrc]⟩
    have hfile : ∀ x, u.node dst = some x → x = .dir := by
      intro x hx
      rw [← append_nil dst] at hx
      exact Node.isDir_iff.mp (hcompatible [] x .dir hx hroot)
    obtain ⟨u₁, hmkdir, hnodes⟩ := exists_made hready hfile
    have hlaid : Laid (fun p x => p = dst ∧ x = .dir) u u₁ := by
      refine ⟨?_, fun p hp => ?_⟩
      · rintro p x ⟨rfl, rfl⟩
        rw [hnodes, if_pos rfl]
      · rw [hnodes, if_neg fun heq => hp .dir ⟨heq, rfl⟩]
    have hgrown : Grown dst u u₁ := by
      have h : Grown dst u (mkdirAll .none u dst).1 := mkdirAll_grown hready
      rw [hmkdir] at h
      exact h
    have hagrees₁ := hagrees.grown hapart hgrown
    obtain ⟨entries, hread⟩ := exists_readDir (hagrees₁.dir src hsrc)
    obtain ⟨hnodup, hmem⟩ := readDir_ok hread
    have hentries : ∀ entry ∈ entries, t.node (src ++ [entry.name]) ≠ none ∧
        entry.isDir = t.isDir (src ++ [entry.name]) := by
      intro entry hentry
      obtain ⟨hnode, hisDir⟩ := (hmem entry).mp hentry
      obtain ⟨hsome, hsame⟩ := hagrees₁.child entry.name
      exact ⟨hsome.mp hnode, hisDir.trans hsame⟩
    have hcompatible₁ : ∀ entry ∈ entries, Compatible t u₁ src dst entry.name := by
      intro entry _ q x y hx hy
      rw [hnodes, if_neg (by simp)] at hx
      exact hcompatible (entry.name :: q) x y hx hy
    obtain ⟨u₂, hcopied, hlaid₂⟩ := copyEntries_laid ih copyDir_grown hagrees₁ hdepth hapart
      (hready.grown hgrown) (hlaid.new dst .dir ⟨rfl, rfl⟩) hnodup hentries hcompatible₁
    refine ⟨u₂, ?_, (hlaid.trans hlaid₂ ?_).congr fun p x => ?_⟩
    · rw [copyDir, hmkdir]
      dsimp only
      rw [hread]
      exact hcopied
    · rintro p x x' ⟨rfl, -⟩ ⟨entry, -, q, heq, -⟩
      simp at heq
    · refine (placed_iff hroot fun name q x hx => ?_).symm
      have hnode := (hagrees₁.child name).1.mpr (child_of_backupOf hx)
      exact ⟨_, (hmem ⟨name, u₁.isDir (src ++ [name])⟩).mpr ⟨hnode, rfl⟩, rfl⟩

end

end Zentalk.Mesh
