import Mathlib.Data.Finset.Card
import Mathlib.Data.List.Induction

/-!
# Sampling without repetition

An index that was drawn before is drawn again (`sample_spec`).
-/

namespace Sampling

open List Nat

variable {α β : Type*}

/-- An order for the items of every list. -/
structure Reordering (α : Type*) where
  order : List α → List α
  perm : ∀ l, (order l).Perm l

def Reordering.keep (α : Type*) : Reordering α := ⟨id, fun _ => .refl _⟩

def Reordering.of [DecidableEq α] {l l' : List α} (h : l'.Perm l) : Reordering α where
  order x := if x = l then l' else x
  perm x := by
    split
    · next hx => rw [hx]; exact h
    · exact .refl x

theorem Reordering.of_order [DecidableEq α] {l l' : List α} (h : l'.Perm l) :
    (Reordering.of h).order l = l' := if_pos rfl

/-- Samples until `count` items are selected; `used` are the indices drawn before. -/
def sample (l : List α) (count : ℕ) : List ℕ → List ℕ → List α → Option (List α)
  | [], _, selected => if selected.length < count then none else some selected
  | d :: draws, used, selected =>
    if selected.length < count then
      let i := d % l.length
      if i ∈ used then sample l count draws used selected
      else sample l count draws (i :: used) (selected ++ l[i]?.toList)
    else some selected

/-- The places with the given indices were selected, one after the other. -/
structure Sampled (l : List α) (used : List ℕ) (selected : List α) : Prop where
  nodup : used.Nodup
  lt : ∀ i ∈ used, i < l.length
  eq : selected = used.reverse.filterMap fun i => l[i]?

variable {l selected s : List α} {used : List ℕ} {count : ℕ}

theorem filterMap_range (l : List α) : (range l.length).filterMap (fun i => l[i]?) = l := by
  induction l using reverseRecOn with
  | nil => rfl
  | append_singleton l a ih =>
    have hfront : (range l.length).filterMap (fun i => (l ++ [a])[i]?) = l := by
      refine Eq.trans (filterMap_congr fun i hi => ?_) ih
      exact getElem?_append_left (mem_range.mp hi)
    rw [length_append, length_singleton, range_succ, filterMap_append, hfront]
    simp

/-- No place is taken twice. -/
theorem Sampled.subperm (h : Sampled l used selected) : selected.Subperm l := by
  obtain ⟨hnodup, hlt, rfl⟩ := h
  have hused : used.reverse.Subperm (range l.length) := by
    refine (nodup_reverse.mpr hnodup).subperm fun i hi => ?_
    exact mem_range.mpr (hlt i (mem_reverse.mp hi))
  obtain ⟨part, hperm, hsub⟩ := hused
  have hpart := hsub.filterMap fun i => l[i]?
  rw [filterMap_range] at hpart
  exact ⟨_, hperm.filterMap _, hpart⟩

theorem Sampled.snoc (h : Sampled l used selected) {i : ℕ} (hi : i < l.length) (hnew : i ∉ used) :
    Sampled l (i :: used) (selected ++ l[i]?.toList) := by
  refine ⟨nodup_cons.mpr ⟨hnew, h.nodup⟩, forall_mem_cons.mpr ⟨hi, h.lt⟩, ?_⟩
  rw [reverse_cons, filterMap_append, h.eq, getElem?_eq_getElem hi]
  simp [hi]

variable {draws : List ℕ}

theorem sample_sampled (hne : l ≠ []) (h : Sampled l used selected) (hle : selected.length ≤ count)
    (hs : sample l count draws used selected = some s) :
    ∃ used', Sampled l used' s ∧ s.length = count := by
  induction draws generalizing used selected with
  | nil =>
    rw [sample] at hs
    split at hs
    · cases hs
    · next hfull =>
      obtain rfl := Option.some.inj hs
      exact ⟨used, h, by omega⟩
  | cons d draws ih =>
    rw [sample] at hs
    split at hs
    · next hmore =>
      simp only at hs
      have hi : d % l.length < l.length := mod_lt d (length_pos_iff.mpr hne)
      split at hs
      · exact ih h hle hs
      · next hnew =>
        refine ih (h.snoc hi hnew) ?_ hs
        rw [getElem?_eq_getElem hi, length_append]
        exact hmore
    · next hfull =>
      obtain rfl := Option.some.inj hs
      exact ⟨used, h, by omega⟩

/-- What a sample is. -/
theorem sample_spec (hne : l ≠ []) (hs : sample l count draws [] [] = some s) :
    s.length = count ∧ s.Subperm l := by
  obtain ⟨used, hsampled, hlen⟩ := sample_sampled hne ⟨.nil, by simp, rfl⟩ (zero_le _) hs
  exact ⟨hlen, hsampled.subperm⟩

theorem sample_range_from {l rest : List α} {k n : ℕ} (hk : k ≤ l.length) (hn : l.length ≤ k + n)
    (hused : ∀ i ∈ used, i < k) :
    sample (l ++ rest) l.length (range' k n) used (l.take k) = some l := by
  induction n generalizing k used with
  | zero =>
    obtain rfl : k = l.length := by omega
    simp [sample]
  | succ n ih =>
    rw [range'_succ, sample, length_take]
    rcases lt_or_ge k l.length with hlt | hge
    · have hmod : k % (l ++ rest).length = k :=
        mod_eq_of_lt (by rw [length_append]; omega)
      have hnew : k ∉ used := fun hk => lt_irrefl k (hused k hk)
      have htake : l.take k ++ (l ++ rest)[k]?.toList = l.take (k + 1) := by
        rw [getElem?_append_left hlt, take_add_one]
      rw [hmod, if_pos (by omega), if_neg hnew, htake]
      refine ih hlt (by omega) fun i hi => ?_
      rcases mem_cons.mp hi with rfl | hi
      · omega
      · exact lt_succ_of_lt (hused i hi)
    · rw [if_neg (by omega), take_of_length_le hge]

/-- Every first part of a list is a sample of it. -/
theorem sample_range (l rest : List α) :
    sample (l ++ rest) l.length (range (l ++ rest).length) [] [] = some l := by
  rw [range_eq_range']
  exact sample_range_from (zero_le _) (by simp) (by simp)

theorem sample_isSome_iff (hne : l ≠ []) (hnodup : used.Nodup)
    (hlen : selected.length = used.length) :
    (sample l count draws used selected).isSome = true ↔
      count ≤ (used.toFinset ∪ (draws.map (· % l.length)).toFinset).card := by
  have hcard : used.toFinset.card = selected.length := by
    rw [toFinset_card_of_nodup hnodup, hlen]
  induction draws generalizing used selected with
  | nil =>
    rw [sample, map_nil, toFinset_nil, Finset.union_empty, hcard]
    split
    · next hmore => exact iff_of_false Bool.false_ne_true (by omega)
    · next hfull => exact iff_of_true rfl (by omega)
  | cons d draws ih =>
    rw [sample, map_cons, toFinset_cons]
    split
    · simp only
      split
      · next hold =>
        refine (ih hnodup hlen hcard).trans ?_
        rw [Finset.union_insert, Finset.insert_eq_of_mem]
        exact Finset.mem_union_left _ (mem_toFinset.mpr hold)
      · next hnew =>
        have hi : d % l.length < l.length := mod_lt d (length_pos_iff.mpr hne)
        have hlen' : (selected ++ l[d % l.length]?.toList).length =
            (d % l.length :: used).length := by
          rw [getElem?_eq_getElem hi, length_append, hlen]
          rfl
        have hnodup' : (d % l.length :: used).Nodup := nodup_cons.mpr ⟨hnew, hnodup⟩
        refine (ih hnodup' hlen' ?_).trans ?_
        · rw [toFinset_card_of_nodup hnodup', hlen']
        · rw [toFinset_cons, Finset.insert_union, Finset.union_insert]
    · next hfull =>
      refine iff_of_true rfl ?_
      have hsub : used.toFinset ⊆
          used.toFinset ∪ insert (d % l.length) (draws.map (· % l.length)).toFinset :=
        Finset.subset_union_left
      have hle := Finset.card_le_card hsub
      omega

theorem nodup_map_of_subperm {f : α → β} (h : s.Subperm l) (hnodup : (l.map f).Nodup) :
    (s.map f).Nodup := by
  obtain ⟨part, hperm, hsub⟩ := h
  exact (hperm.map f).nodup_iff.mp (hnodup.sublist (hsub.map f))

/-- Every part comes first in some order. -/
theorem exists_front [DecidableEq α] (h : s.Subperm l) : ∃ rest : List α, (s ++ rest).Perm l :=
  ⟨l.diff s, subperm_append_diff_self_of_count_le (subperm_ext_iff.mp h)⟩

theorem take_front {rest : List α} (h : (s ++ rest).Perm l) (hlen : s.length = min count l.length) :
    (s ++ rest).take count = s := by
  have hlength := h.length_eq
  rw [length_append] at hlength
  rcases lt_or_ge s.length count with hlt | hge
  · have hnil : rest = [] := length_eq_zero_iff.mp (by omega)
    rw [hnil, append_nil, take_of_length_le hlt.le]
  · rw [take_append_of_le_length hge, take_of_length_le (by omega)]

theorem ne_nil_of_length_eq (hlen : s.length = min count l.length) (hcount : 0 < count)
    (hne : l ≠ []) : s ≠ [] := by
  have hpos := length_pos_iff.mpr hne
  exact ne_nil_of_length_pos (by omega)

/-- Every item may be in a part. -/
theorem exists_including [DecidableEq α] {a : α} (ha : a ∈ l) (hcount : count + 1 ≤ l.length) :
    ∃ part : List α, part.Subperm l ∧ part.length = count + 1 ∧ a ∈ part := by
  refine ⟨a :: (l.erase a).take count, ?_, ?_, mem_cons_self⟩
  · have hsub : ((l.erase a).take count).Subperm (l.erase a) := (take_sublist _ _).subperm
    exact ((subperm_cons a).mpr hsub).trans (perm_cons_erase ha).symm.subperm
  · rw [length_cons, length_take, length_erase_of_mem ha]
    omega

/-- Every item may be left out of a part. -/
theorem exists_avoiding [DecidableEq α] (hnodup : l.Nodup) (hcount : count < l.length) (a : α) :
    ∃ part : List α, part.Subperm l ∧ part.length = count ∧ a ∉ part := by
  have hlen : count ≤ (l.erase a).length := by
    rw [length_erase]
    split <;> omega
  refine ⟨(l.erase a).take count, ?_, ?_, fun ha => ?_⟩
  · exact ((take_sublist _ _).trans erase_sublist).subperm
  · rw [length_take]
    exact min_eq_left hlen
  · exact hnodup.not_mem_erase (mem_of_mem_take ha)

/-- In a list without repetition, two items have one order. -/
theorem not_both_orders {a b : α} (hnodup : l.Nodup) (hab : [a, b].Sublist l) :
    ¬ [b, a].Sublist l := by
  induction l with
  | nil => cases hab
  | cons x l ih =>
    obtain ⟨hx, hnodup⟩ := nodup_cons.mp hnodup
    intro hba
    cases hab with
    | cons _ hab =>
      cases hba with
      | cons _ hba => exact ih hnodup hab hba
      | cons_cons _ hba => exact hx (hab.subset (by simp))
    | cons_cons _ hab =>
      cases hba with
      | cons _ hba => exact hx (hba.subset (by simp))
      | cons_cons _ hba => exact hx (hab.subset (by simp))

end Sampling
