import Mathlib.Data.List.Dedup
import Mathlib.Data.List.Infix

/-!
# Directories and files

`Grown dst` says what operations below `dst` may change, and `Laid` what was written.
-/

namespace Files

open List

/-- A directory, or a file with its data. -/
inductive Node (δ : Type*)
  | dir
  | file (data : δ)

variable {ν δ : Type*}

def Node.isDir : Node δ → Bool
  | dir => true
  | file _ => false

theorem Node.isDir_iff {x : Node δ} : x.isDir = true ↔ x = .dir := by
  cases x with
  | dir => simp [isDir]
  | file data => simp [isDir]

structure FileTree (ν δ : Type*) where
  node : List ν → Option (Node δ)
  paths : List (List ν)
  mem_paths : ∀ p, node p ≠ none → p ∈ paths
  parent : ∀ p n, node (p ++ [n]) ≠ none → node p = some .dir

namespace FileTree

variable {t t' u u' : FileTree ν δ} {p q dst : List ν} {n : ν}

def isDir (t : FileTree ν δ) (p : List ν) : Bool := (t.node p).any Node.isDir

theorem isDir_iff : t.isDir p = true ↔ t.node p = some .dir := by
  unfold isDir
  cases t.node p with
  | none => simp
  | some x => rw [Option.any_some, Node.isDir_iff, Option.some.injEq]

/-- What lies above a node is a directory. -/
theorem dir_above (hnode : t.node p ≠ none) (habove : q <+: p) (hne : q ≠ p) :
    t.node q = some .dir := by
  induction p using List.reverseRecOn with
  | nil => exact absurd (prefix_nil.mp habove) hne
  | append_singleton p n ih =>
    have hparent := t.parent p n hnode
    rcases prefix_concat_iff.mp habove with rfl | habove
    · exact absurd rfl hne
    · rcases eq_or_ne q p with rfl | hne'
      · exact hparent
      · exact ih (by rw [hparent]; exact Option.some_ne_none _) habove hne'

/-! ## What operations below a path change -/

/-- Nothing changes that is not at or below the path, and what there was stays, as a directory or
as a file. -/
structure Grown (dst : List ν) (u u' : FileTree ν δ) : Prop where
  frame : ∀ p, ¬ dst <+: p → u'.node p = u.node p
  kind : ∀ p x, u.node p = some x → ∃ x', u'.node p = some x' ∧ x'.isDir = x.isDir

theorem Grown.refl (dst : List ν) (u : FileTree ν δ) : Grown dst u u :=
  ⟨fun _ _ => rfl, fun _ x hx => ⟨x, hx, rfl⟩⟩

variable {u'' : FileTree ν δ}

theorem Grown.trans (h : Grown dst u u') (h' : Grown dst u' u'') : Grown dst u u'' := by
  refine ⟨fun p hp => (h'.frame p hp).trans (h.frame p hp), fun p x hx => ?_⟩
  obtain ⟨x', hx', hkind⟩ := h.kind p x hx
  obtain ⟨x'', hx'', hkind'⟩ := h'.kind p x' hx'
  exact ⟨x'', hx'', hkind'.trans hkind⟩

theorem Grown.below (h : Grown (dst ++ [n]) u u') : Grown dst u u' :=
  ⟨fun p hp => h.frame p fun hbelow => hp ((prefix_append dst [n]).trans hbelow), h.kind⟩

theorem Grown.dir (h : Grown dst u u') (hdir : u.node p = some .dir) : u'.node p = some .dir := by
  obtain ⟨x, hx, hkind⟩ := h.kind p .dir hdir
  rw [hx, Node.isDir_iff.mp hkind]

/-- All directories above the path are there. -/
def Ready (u : FileTree ν δ) (dst : List ν) : Prop :=
  ∀ p, p <+: dst → p ≠ dst → u.node p = some .dir

theorem ready_of_node (h : u.node dst ≠ none) : Ready u dst :=
  fun _ habove hne => dir_above h habove hne

theorem Ready.below (h : Ready u dst) (hdir : u.node dst = some .dir) : Ready u (dst ++ [n]) := by
  intro p habove hne
  rcases prefix_concat_iff.mp habove with rfl | habove
  · exact absurd rfl hne
  · rcases eq_or_ne p dst with rfl | hne'
    · exact hdir
    · exact h p habove hne'

theorem Ready.grown (h : Ready u dst) (hgrown : Grown q u u') : Ready u' dst :=
  fun p habove hne => hgrown.dir (h p habove hne)

/-- Exactly the nodes of `R` were written. -/
structure Laid (R : List ν → Node δ → Prop) (u u' : FileTree ν δ) : Prop where
  new : ∀ p x, R p x → u'.node p = some x
  old : ∀ p, (∀ x, ¬ R p x) → u'.node p = u.node p

variable {R R' : List ν → Node δ → Prop}

theorem Laid.trans (h : Laid R u u') (h' : Laid R' u' u'')
    (hsame : ∀ p x x', R p x → R' p x' → x = x') : Laid (fun p x => R p x ∨ R' p x) u u'' := by
  refine ⟨fun p x hx => ?_, fun p hp => ?_⟩
  · rcases hx with hx | hx
    · rcases Classical.em (∃ x', R' p x') with ⟨x', hx'⟩ | hnone
      · rw [hsame p x x' hx hx']
        exact h'.new p x' hx'
      · rw [h'.old p (not_exists.mp hnone)]
        exact h.new p x hx
    · exact h'.new p x hx
  · rw [h'.old p fun x hx => hp x (.inr hx), h.old p fun x hx => hp x (.inl hx)]

theorem Laid.congr (h : Laid R u u') (hiff : ∀ p x, R p x ↔ R' p x) : Laid R' u u' :=
  ⟨fun p x hx => h.new p x ((hiff p x).mpr hx),
    fun p hp => h.old p fun x hx => hp x ((hiff p x).mp hx)⟩

/-! ## Operations -/

/-- What lies at or below some paths is removed. -/
def prune (t : FileTree ν δ) (dead : List ν → Bool) : FileTree ν δ where
  node q := if q.inits.any dead then none else t.node q
  paths := t.paths
  mem_paths q hq := by
    split at hq
    · exact absurd rfl hq
    · exact t.mem_paths q hq
  parent q n hq := by
    split at hq
    · exact absurd rfl hq
    · next hlive =>
      rw [if_neg, t.parent q n hq]
      intro hdead
      refine hlive ?_
      rw [any_eq_true] at hdead ⊢
      obtain ⟨r, hr, hdead⟩ := hdead
      exact ⟨r, (mem_inits _ _).mpr (((mem_inits _ _).mp hr).trans (prefix_append q [n])), hdead⟩

theorem node_prune (dead : List ν → Bool) :
    (t.prune dead).node q = t.node q ∨ (t.prune dead).node q = none := by
  unfold prune
  dsimp only
  split
  · exact .inr rfl
  · exact .inl rfl

variable {dead : List ν → Bool}

theorem node_prune_of_live (h : ∀ r, r <+: q → dead r = false) :
    (t.prune dead).node q = t.node q := by
  refine if_neg ?_
  rw [any_eq_true]
  rintro ⟨r, hr, hdead⟩
  rw [h r ((mem_inits _ _).mp hr)] at hdead
  cases hdead

theorem node_prune_of_dead {r : List ν} (hr : r <+: q) (hdead : dead r = true) :
    (t.prune dead).node q = none :=
  if_pos (any_eq_true.mpr ⟨r, (mem_inits _ _).mpr hr, hdead⟩)

variable [DecidableEq ν]

def children (t : FileTree ν δ) (p : List ν) : List ν :=
  (t.paths.filterMap fun q =>
    if q.dropLast = p ∧ (t.node q).isSome then q.getLast? else none).dedup

theorem mem_children : n ∈ t.children p ↔ t.node (p ++ [n]) ≠ none := by
  rw [children, mem_dedup, mem_filterMap]
  constructor
  · rintro ⟨q, -, hq⟩
    rw [Option.ite_none_right_eq_some] at hq
    obtain ⟨⟨rfl, hsome⟩, hlast⟩ := hq
    rw [dropLast_append_getLast? n hlast]
    exact Option.isSome_iff_ne_none.mp hsome
  · intro hnode
    refine ⟨p ++ [n], t.mem_paths _ hnode, ?_⟩
    rw [dropLast_concat, List.getLast?_concat,
      if_pos ⟨rfl, Option.isSome_iff_ne_none.mpr hnode⟩]

theorem nodup_children : (t.children p).Nodup := nodup_dedup _

/-- All directories of the path are made. It fails if one of them is a file. -/
def mkdirAll (t : FileTree ν δ) (p : List ν) : Option (FileTree ν δ) :=
  if p.inits.all fun q => (t.node q).all Node.isDir then
    some
      { node q := if q <+: p then some .dir else t.node q
        paths := p.inits ++ t.paths
        mem_paths q hq := by
          rw [mem_append, mem_inits]
          split at hq
          · next habove => exact .inl habove
          · exact .inr (t.mem_paths q hq)
        parent q n hq := by
          split at hq
          · next habove => exact if_pos ((prefix_append q [n]).trans habove)
          · split
            · rfl
            · exact t.parent q n hq }
  else none

theorem dir_of_mkdirAll (h : t.mkdirAll p = some t') {x : Node δ} (hq : q <+: p)
    (hx : t.node q = some x) : x = .dir := by
  rw [mkdirAll, Option.ite_none_right_eq_some, all_eq_true] at h
  have hall := h.1 q ((mem_inits q p).mpr hq)
  rw [Option.all_eq_true] at hall
  exact Node.isDir_iff.mp (hall x hx)

theorem node_mkdirAll (h : t.mkdirAll p = some t') (q : List ν) :
    t'.node q = if q <+: p then some .dir else t.node q := by
  rw [mkdirAll, Option.ite_none_right_eq_some] at h
  rw [← Option.some.inj h.2]

theorem exists_mkdirAll (hready : ∀ q, q <+: p → q ≠ p → t.node q = some .dir)
    (hfile : ∀ x, t.node p = some x → x = .dir) :
    ∃ t', t.mkdirAll p = some t' ∧ ∀ q, t'.node q = if q = p then some .dir else t.node q := by
  have hall : (p.inits.all fun q => (t.node q).all Node.isDir) = true := by
    rw [all_eq_true]
    intro q hq
    rw [Option.all_eq_true]
    intro x hx
    rw [Node.isDir_iff]
    rcases eq_or_ne q p with rfl | hne
    · exact hfile x hx
    · rw [hready q ((mem_inits q p).mp hq) hne] at hx
      exact (Option.some.inj hx).symm
  obtain ⟨t', ht'⟩ : ∃ t', t.mkdirAll p = some t' := ⟨_, if_pos hall⟩
  refine ⟨t', ht', fun q => ?_⟩
  rw [node_mkdirAll ht' q]
  rcases eq_or_ne q p with rfl | hne
  · rw [if_pos (prefix_refl q), if_pos rfl]
  · split
    · next habove => exact (hready q habove hne).symm
    · rfl

theorem grown_mkdirAll (h : t.mkdirAll p = some t')
    (hdirs : ∀ q, q <+: p → t.node q = some .dir ∨ dst <+: q) : Grown dst t t' := by
  refine ⟨fun q hq => ?_, fun q x hx => ?_⟩
  · rw [node_mkdirAll h]
    split
    · next habove => exact ((hdirs q habove).resolve_right hq).symm
    · rfl
  · rw [node_mkdirAll h]
    split
    · next habove => exact ⟨.dir, rfl, by rw [dir_of_mkdirAll h habove hx]⟩
    · exact ⟨x, hx, rfl⟩

/-- A file is written, in a directory that is there. -/
def writeFile (t : FileTree ν δ) (p : List ν) (data : δ) : Option (FileTree ν δ) :=
  if h : p ≠ [] ∧ t.isDir p.dropLast = true ∧ t.isDir p = false then
    some
      { node q := if q = p then some (.file data) else t.node q
        paths := p :: t.paths
        mem_paths q hq := by
          split at hq
          · next heq => exact heq ▸ mem_cons_self
          · exact mem_cons_of_mem _ (t.mem_paths q hq)
        parent q n hq := by
          have hdir : t.node q = some .dir := by
            split at hq
            · next heq => rw [← isDir_iff, ← h.2.1, ← heq, dropLast_concat]
            · exact t.parent q n hq
          rw [if_neg, hdir]
          rintro rfl
          rw [isDir_iff.mpr hdir] at h
          cases h.2.2 }
  else none

variable {data : δ}

theorem node_writeFile (h : t.writeFile p data = some t') (q : List ν) :
    t'.node q = if q = p then some (.file data) else t.node q := by
  rw [writeFile, Option.dite_none_right_eq_some] at h
  obtain ⟨_, h⟩ := h
  rw [← Option.some.inj h]

theorem isDir_of_writeFile (h : t.writeFile p data = some t') : t.isDir p = false := by
  rw [writeFile, Option.dite_none_right_eq_some] at h
  exact h.1.2.2

theorem grown_writeFile (h : t.writeFile p data = some t') (hbelow : dst <+: p) :
    Grown dst t t' := by
  refine ⟨fun q hq => ?_, fun q x hx => ?_⟩
  · rw [node_writeFile h, if_neg]
    rintro rfl
    exact hq hbelow
  · rw [node_writeFile h]
    split
    · next heq =>
      have hfile := isDir_of_writeFile h
      rw [isDir, ← heq, hx, Option.any_some] at hfile
      exact ⟨_, rfl, hfile.symm⟩
    · exact ⟨x, hx, rfl⟩

theorem exists_writeFile (data : δ) (hdir : t.node p = some .dir)
    (hfile : t.isDir (p ++ [n]) = false) : ∃ t', t.writeFile (p ++ [n]) data = some t' := by
  refine ⟨_, dif_pos ⟨by simp, ?_, hfile⟩⟩
  rw [dropLast_concat, isDir_iff, hdir]

end FileTree

end Files
