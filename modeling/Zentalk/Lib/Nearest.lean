import Mathlib.Data.Finset.Card
import Mathlib.Data.List.Perm.Basic
import Mathlib.Order.Lattice.Nat

/-!
# The nearest of what was learned

`Nearest d k learned l`: the `k` nearest of all that was learned, also after a round
(`Nearest.merge`).
-/

namespace Ranking

open List

variable {α ι : Type*} [LinearOrder ι] {d : α → ι}

def SortedBy (d : α → ι) (l : List α) : Prop := l.Pairwise fun a b => d a ≤ d b

/-! ## The exchange sort -/

/-- One pass of the outer loop: the item at the front is swapped with every later one that is
closer. -/
def sweep (closer : α → α → Bool) (x : α) : List α → α × List α
  | [] => (x, [])
  | y :: ys =>
    if closer y x then
      let out := sweep closer y ys
      (out.1, x :: out.2)
    else
      let out := sweep closer x ys
      (out.1, y :: out.2)

def exchangePasses (closer : α → α → Bool) : ℕ → List α → List α
  | 0, l => l
  | _ + 1, [] => []
  | n + 1, x :: xs =>
    let out := sweep closer x xs
    out.1 :: exchangePasses closer n out.2

def exchangeSort (closer : α → α → Bool) (l : List α) : List α := exchangePasses closer l.length l

variable {closer : α → α → Bool}

theorem sweep_perm (x : α) (xs : List α) :
    ((sweep closer x xs).1 :: (sweep closer x xs).2).Perm (x :: xs) := by
  induction xs generalizing x with
  | nil => exact .refl _
  | cons y ys ih =>
    rw [sweep]
    split
    · exact (List.Perm.swap ..).trans ((ih y).cons x)
    · exact (List.Perm.swap ..).trans (((ih x).cons y).trans (.swap ..))

theorem sweep_le (hcloser : ∀ a b, closer a b = true ↔ d a < d b) (x : α) (xs : List α) :
    ∀ y ∈ x :: xs, d (sweep closer x xs).1 ≤ d y := by
  induction xs generalizing x with
  | nil => simp [sweep]
  | cons z zs ih =>
    rw [sweep]
    intro y hy
    split
    · next hz =>
      have hzx := ((hcloser z x).mp hz).le
      rcases mem_cons.mp hy with rfl | hy
      · exact (ih z z mem_cons_self).trans hzx
      · exact ih z y hy
    · next hz =>
      have hxz : d x ≤ d z := not_lt.mp fun h => hz ((hcloser z x).mpr h)
      rcases mem_cons.mp hy with rfl | hy
      · exact ih y y mem_cons_self
      · rcases mem_cons.mp hy with rfl | hy
        · exact (ih x x mem_cons_self).trans hxz
        · exact ih x y (mem_cons_of_mem x hy)

theorem exchangePasses_perm (n : ℕ) (l : List α) : (exchangePasses closer n l).Perm l := by
  induction n generalizing l with
  | zero => exact .refl _
  | succ n ih =>
    cases l with
    | nil => exact .refl _
    | cons x xs => exact ((ih _).cons _).trans (sweep_perm x xs)

theorem exchangePasses_sorted (hcloser : ∀ a b, closer a b = true ↔ d a < d b) {n : ℕ} {l : List α}
    (hn : l.length ≤ n) : SortedBy d (exchangePasses closer n l) := by
  induction n generalizing l with
  | zero =>
    obtain rfl := length_eq_zero_iff.mp (Nat.le_zero.mp hn)
    exact .nil
  | succ n ih =>
    cases l with
    | nil => exact .nil
    | cons x xs =>
      have hperm : ((sweep closer x xs).1 :: (sweep closer x xs).2).Perm (x :: xs) :=
        sweep_perm x xs
      have hlen := hperm.length_eq
      rw [length_cons, length_cons] at hlen
      refine pairwise_cons.mpr ⟨fun y hy => ?_, ih ?_⟩
      · refine sweep_le hcloser x xs y (hperm.subset (mem_cons_of_mem _ ?_))
        exact (exchangePasses_perm n _).subset hy
      · rw [length_cons] at hn
        omega

theorem exchangeSort_perm (l : List α) : (exchangeSort closer l).Perm l :=
  exchangePasses_perm l.length l

theorem exchangeSort_sorted (hcloser : ∀ a b, closer a b = true ↔ d a < d b) (l : List α) :
    SortedBy d (exchangeSort closer l) :=
  exchangePasses_sorted hcloser (Nat.le_refl _)

/-! ## The nearest items -/

/-- `l` holds the `k` nearest of the items that were learned, or all of them. -/
structure Nearest (d : α → ι) (k : ℕ) (learned l : List α) : Prop where
  sorted : SortedBy d l
  length_le : l.length ≤ k
  rest : ∃ dropped, learned.Perm (l ++ dropped) ∧ (∀ a ∈ l, ∀ b ∈ dropped, d a ≤ d b) ∧
    (dropped ≠ [] → l.length = k)

variable {k : ℕ} {learned l l' new : List α}

theorem Nearest.refl (hsorted : SortedBy d l) (hlen : l.length ≤ k) : Nearest d k l l :=
  ⟨hsorted, hlen, [], by rw [append_nil], nofun, fun h => absurd rfl h⟩

theorem take_le_of_count (hsorted : SortedBy d l) {b : ι}
    (hcount : k ≤ l.countP fun x => d x ≤ b) : ∀ a ∈ l.take k, d a ≤ b := by
  intro a ha
  obtain ⟨i, hi, rfl⟩ := getElem_of_mem ha
  rw [length_take] at hi
  rw [getElem_take]
  by_contra hfar
  -- From place `i` on, every item is farther than `b`.
  have hbehind : (l.drop i).countP (fun x => d x ≤ b) = 0 := by
    refine countP_eq_zero.mpr fun x hx => ?_
    obtain ⟨j, hj, rfl⟩ := getElem_of_mem hx
    rw [length_drop] at hj
    have hle : d (l.get ⟨i, by omega⟩) ≤ d (l.get ⟨i + j, by omega⟩) := by
      rcases Nat.eq_zero_or_pos j with rfl | hpos
      · exact le_rfl
      · exact pairwise_iff_getElem.mp hsorted i (i + j) (by omega) (by omega) (by omega)
    simpa using lt_of_lt_of_le (not_le.mp hfar) hle
  have hsplit : l.countP (fun x => d x ≤ b) =
      (l.take i).countP (fun x => d x ≤ b) + (l.drop i).countP fun x => d x ≤ b := by
    rw [← countP_append, take_append_drop]
  have hfront : (l.take i).countP (fun x => d x ≤ b) ≤ i :=
    countP_le_length.trans (by rw [length_take]; omega)
  omega

/-- Append, sort and cut: what was cut off stays farther than the list. -/
theorem Nearest.merge (h : Nearest d k learned l) (hsorted : SortedBy d l')
    (hperm : l'.Perm (l ++ new)) : Nearest d k (learned ++ new) (l'.take k) := by
  obtain ⟨dropped, hlearned, hfar, hfull⟩ := h.rest
  refine ⟨hsorted.sublist (take_sublist k l'), length_take_le k l',
    l'.drop k ++ dropped, ?_, ?_, ?_⟩
  · have hswap : ((l ++ dropped) ++ new).Perm ((l ++ new) ++ dropped) := by
      rw [append_assoc, append_assoc]
      exact perm_append_comm.append_left l
    rw [← append_assoc, take_append_drop]
    exact ((hlearned.append_right new).trans hswap).trans (hperm.symm.append_right dropped)
  · intro a ha b hb
    rcases mem_append.mp hb with hb | hb
    · rw [← take_append_drop k l'] at hsorted
      exact (pairwise_append.mp hsorted).2.2 a ha b hb
    · refine take_le_of_count hsorted ?_ a ha
      have hall : l.countP (fun x => d x ≤ d b) = l.length :=
        countP_eq_length.mpr fun x hx => by simpa using hfar x hx b hb
      have hk := hfull (ne_nil_of_mem hb)
      rw [hperm.countP_eq, countP_append, hall]
      omega
  · intro hne
    rw [length_take]
    by_cases hcut : k ≤ l'.length
    · omega
    · have hdrop : l'.drop k = [] := drop_of_length_le (by omega)
      rw [hdrop, nil_append] at hne
      have hk := hfull hne
      have hlen := hperm.length_eq
      rw [length_append] at hlen
      omega

theorem Nearest.le_of_not_mem (h : Nearest d k learned l) {b : α} (hb : b ∈ learned)
    (hnot : b ∉ l) : ∀ a ∈ l, d a ≤ d b := by
  obtain ⟨dropped, hlearned, hfar, -⟩ := h.rest
  have hdropped := (mem_append.mp (hlearned.subset hb)).resolve_left hnot
  exact fun a ha => hfar a ha b hdropped

/-- Sorting everything and cutting. -/
theorem Nearest.take (hsorted : SortedBy d l') (hperm : l'.Perm learned) :
    Nearest d k learned (l'.take k) := by
  have hnone : Nearest d k [] [] := .refl .nil (Nat.zero_le k)
  exact hnone.merge hsorted hperm

theorem Nearest.length_eq (h : Nearest d k learned l) : l.length = min k learned.length := by
  obtain ⟨dropped, hlearned, -, hfull⟩ := h.rest
  have hle := h.length_le
  have hlen := hlearned.length_eq
  rw [length_append] at hlen
  by_cases hnil : dropped = []
  · rw [hnil, length_nil] at hlen
    omega
  · have hk := hfull hnil
    omega

theorem Nearest.subset (h : Nearest d k learned l) : l ⊆ learned := by
  obtain ⟨dropped, hlearned, -, -⟩ := h.rest
  exact fun a ha => hlearned.symm.subset (mem_append_left dropped ha)

section Distinct

variable (hnodup : (learned.map d).Nodup)

include hnodup

theorem Nearest.increasing (h : Nearest d k learned l) : l.Pairwise fun a b => d a < d b := by
  obtain ⟨dropped, hlearned, -, -⟩ := h.rest
  have hdistinct : (l.map d).Nodup := by
    have hall := (hlearned.map d).nodup_iff.mp hnodup
    rw [map_append] at hall
    exact (nodup_append.mp hall).1
  have hne : l.Pairwise fun a b => d a ≠ d b := pairwise_map.mp hdistinct
  exact (h.sorted.and hne).imp fun hab => lt_of_le_of_ne hab.1 hab.2

theorem Nearest.lt_of_not_mem (h : Nearest d k learned l) {b : α} (hb : b ∈ learned)
    (hnot : b ∉ l) : ∀ a ∈ l, d a < d b := by
  intro a ha
  refine lt_of_le_of_ne (h.le_of_not_mem hb hnot a ha) fun heq => hnot ?_
  obtain rfl := inj_on_of_nodup_map hnodup (h.subset ha) hb heq
  exact ha

end Distinct

theorem Nearest.countP_eq (h : Nearest d k learned l) (p : α → Bool)
    (hp : ∀ a b, d a ≤ d b → p b = true → p a = true) :
    l.countP p = min k (learned.countP p) := by
  obtain ⟨dropped, hlearned, hfar, hfull⟩ := h.rest
  have hle : l.countP p ≤ l.length := countP_le_length
  have hlen := h.length_le
  rw [hlearned.countP_eq, countP_append]
  by_cases hany : ∃ b ∈ dropped, p b = true
  · -- Something nearer than the bound was dropped, so the whole list is.
    obtain ⟨b, hb, hpb⟩ := hany
    have hall : l.countP p = l.length :=
      countP_eq_length.mpr fun a ha => hp a b (hfar a ha b hb) hpb
    have hk := hfull (ne_nil_of_mem hb)
    omega
  · have hnone : dropped.countP p = 0 :=
      countP_eq_zero.mpr fun b hb hpb => hany ⟨b, hb, hpb⟩
    omega

/-- No distance is repeated just when each one learned twice has `k - 1` nearer items before it. -/
theorem Nearest.nodup_iff (h : Nearest d k learned l) :
    (l.map d).Nodup ↔
      ∀ x, 2 ≤ (learned.map d).count x → k ≤ learned.countP (fun a => d a < x) + 1 := by
  have hcount (m : List α) x :
      m.countP (fun a => d a ≤ x) = m.countP (fun a => d a < x) + (m.map d).count x := by
    induction m with
    | nil => rfl
    | cons a m ih =>
      rw [countP_cons, countP_cons, map_cons, count_cons, ih]
      rcases lt_trichotomy (d a) x with hlt | heq | hgt
      · simp [hlt, hlt.le, hlt.ne]
        omega
      · simp [heq]
        omega
      · simp [hgt.not_ge, hgt.not_gt, hgt.ne']
  rw [nodup_iff_count_le_one]
  refine forall_congr' fun x => ?_
  have hlt := h.countP_eq (fun a => d a < x) fun a b hab hb => by
    simp only [decide_eq_true_eq] at hb ⊢
    exact hab.trans_lt hb
  have hle := h.countP_eq (fun a => d a ≤ x) fun a b hab hb => by
    simp only [decide_eq_true_eq] at hb ⊢
    exact hab.trans hb
  have hl := hcount l x
  have hall := hcount learned x
  omega

theorem Nearest.length_eq_of_nodup {β : Type*} [DecidableEq β] (f : α → β)
    (h : Nearest d k learned l) (hnodup : (l.map f).Nodup) :
    l.length = min k (learned.map f).toFinset.card := by
  obtain ⟨dropped, hlearned, -, hfull⟩ := h.rest
  have hlen := h.length_le
  by_cases hdropped : dropped = []
  · subst hdropped
    rw [append_nil] at hlearned
    have hcard : (learned.map f).toFinset.card = (learned.map f).length :=
      toFinset_card_of_nodup ((hlearned.map f).nodup_iff.mpr hnodup)
    rw [hcard, length_map, hlearned.length_eq]
    omega
  · have hk := hfull hdropped
    have hsub : (l.map f).toFinset ⊆ (learned.map f).toFinset := by
      intro b hb
      rw [mem_toFinset] at hb ⊢
      exact (hlearned.map f).symm.subset (by rw [map_append]; exact mem_append_left _ hb)
    have hcard := Finset.card_le_card hsub
    rw [toFinset_card_of_nodup hnodup, length_map] at hcard
    omega

end Ranking
