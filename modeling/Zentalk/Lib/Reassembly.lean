import Mathlib.Data.List.Basic
import Mathlib.Order.Bounds.Defs

/-!
# Putting numbered items back in order

`InOrder` says what was handed on, and `waiting` what must be kept.
-/

namespace Reassembly

open List Option

variable {α : Type*} {num : α → ℕ} {arrived passed : List α} {k n : ℕ} {a : α}

def first (num : α → ℕ) (arrived : List α) (n : ℕ) : Option α := arrived.find? fun a => num a = n

theorem first_eq_none : first num arrived n = none ↔ ∀ a ∈ arrived, num a ≠ n := by
  simp [first]

theorem num_of_first (h : first num arrived n = some a) : num a = n := by
  simpa using find?_some h

theorem mem_of_first (h : first num arrived n = some a) : a ∈ arrived := mem_of_find?_eq_some h

theorem first_concat (num : α → ℕ) (arrived : List α) (a : α) (n : ℕ) :
    first num (arrived ++ [a]) n =
      if first num arrived n = none ∧ num a = n then some a else first num arrived n := by
  rw [first, find?_append, ← first]
  cases h : first num arrived n with
  | some b => rfl
  | none =>
    by_cases hn : num a = n
    · simp [hn]
    · simp [hn]

/-! ## Handing on -/

/-- The items handed on are the first arrivals numbered 0 to `k - 1`, in this order. -/
structure InOrder (num : α → ℕ) (arrived passed : List α) (k : ℕ) : Prop where
  complete : ∀ n < k, first num arrived n ≠ none
  passed : passed.map some = (range k).map (first num arrived)

theorem inOrder_nil (num : α → ℕ) : InOrder num [] [] 0 := ⟨fun _ h => (nomatch h), rfl⟩

theorem InOrder.arrive (h : InOrder num arrived passed k) (a : α) :
    InOrder num (arrived ++ [a]) passed k := by
  have hsame : ∀ n < k, first num (arrived ++ [a]) n = first num arrived n := by
    intro n hn
    rw [first_concat, if_neg fun hnew => h.complete n hn hnew.1]
  constructor
  · intro n hn
    rw [hsame n hn]
    exact h.complete n hn
  · rw [h.passed]
    exact map_congr_left fun n hn => (hsame n (mem_range.mp hn)).symm

theorem InOrder.pass (h : InOrder num arrived passed k) (ha : first num arrived k = some a) :
    InOrder num arrived (passed ++ [a]) (k + 1) := by
  constructor
  · intro n hn
    rcases Nat.lt_succ_iff_lt_or_eq.mp hn with hn | rfl
    · exact h.complete n hn
    · rw [ha]
      exact some_ne_none a
  · rw [map_append, h.passed, range_succ, map_append]
    simp [ha]

theorem InOrder.isLeast (h : InOrder num arrived passed k) (hnone : first num arrived k = none) :
    IsLeast {n | ∀ a ∈ arrived, num a ≠ n} k := by
  refine ⟨first_eq_none.mp hnone, fun n hn => ?_⟩
  by_contra hlt
  exact h.complete n (Nat.lt_of_not_le hlt) (first_eq_none.mpr hn)

theorem InOrder.mem (h : InOrder num arrived passed k) (ha : a ∈ passed) : a ∈ arrived := by
  have hmem : some a ∈ (range k).map (first num arrived) :=
    h.passed ▸ mem_map_of_mem ha
  obtain ⟨n, -, hn⟩ := mem_map.mp hmem
  exact mem_of_first hn

/-! ## All items arrive -/

/-- The items are numbered 0, 1, 2, … and these have arrived, in any order and any number of
times. -/
structure Arrived (num : α → ℕ) (items arrived : List α) : Prop where
  numbers : items.map num = range items.length
  mem : ∀ a, a ∈ arrived ↔ a ∈ items

variable {items : List α}

theorem Arrived.num_getElem (h : Arrived num items arrived) {i : ℕ} (hi : items[i]? = some a) :
    num a = i := by
  have hmap := congrArg (·[i]?) h.numbers
  simp only [getElem?_map, hi, map_some] at hmap
  obtain ⟨hlt, hnum⟩ := List.getElem?_eq_some_iff.mp hmap.symm
  rw [← hnum, getElem_range]

theorem Arrived.first_eq (h : Arrived num items arrived) (i : ℕ) :
    first num arrived i = items[i]? := by
  cases hi : items[i]? with
  | none =>
    refine first_eq_none.mpr fun a ha hnum => ?_
    obtain ⟨j, hj⟩ := mem_iff_getElem?.mp ((h.mem a).mp ha)
    rw [← hnum, h.num_getElem hj, hj] at hi
    cases hi
  | some a =>
    cases hfirst : first num arrived i with
    | none =>
      exact absurd (h.num_getElem hi)
        (first_eq_none.mp hfirst a ((h.mem a).mpr (mem_of_getElem? hi)))
    | some b =>
      obtain ⟨j, hj⟩ := mem_iff_getElem?.mp ((h.mem b).mp (mem_of_first hfirst))
      rw [← num_of_first hfirst, h.num_getElem hj, hj] at hi
      exact hi

theorem InOrder.all_passed (h : InOrder num arrived passed k) (harrived : Arrived num items arrived)
    (hnone : first num arrived k = none) : passed = items := by
  have hge : items.length ≤ k := by
    rw [harrived.first_eq] at hnone
    exact getElem?_eq_none_iff.mp hnone
  have hle : k ≤ items.length := by
    by_contra hlt
    refine h.complete items.length (Nat.lt_of_not_le hlt) ?_
    rw [harrived.first_eq]
    exact getElem?_eq_none (Nat.le_refl _)
  have hsome : passed.map some = items.map some := by
    rw [h.passed, Nat.le_antisymm hle hge]
    refine ext_getElem? fun i => ?_
    rw [getElem?_map, getElem?_map]
    by_cases hi : i < items.length
    · rw [getElem?_range hi, map_some, harrived.first_eq, getElem?_eq_getElem hi, map_some]
    · rw [getElem?_eq_none (by simpa using Nat.le_of_not_lt hi),
        getElem?_eq_none (Nat.le_of_not_lt hi), map_none, map_none]
  exact map_injective_iff.mpr (fun _ _ heq => some.inj heq) hsome

/-! ## What is kept -/

/-- The first arrivals from number `k` on. -/
def waiting (num : α → ℕ) (arrived : List α) (k n : ℕ) : Option α :=
  if k ≤ n then first num arrived n else none

theorem waiting_seen (h : first num arrived (num a) ≠ none) (k n : ℕ) :
    waiting num (arrived ++ [a]) k n = waiting num arrived k n := by
  have hsame : first num (arrived ++ [a]) n = first num arrived n := by
    rw [first_concat, if_neg]
    rintro ⟨hnone, rfl⟩
    exact h hnone
  rw [waiting, hsame, waiting]

theorem waiting_new (h : first num arrived (num a) = none) (hle : k ≤ num a) (n : ℕ) :
    waiting num (arrived ++ [a]) k n = if n = num a then some a else waiting num arrived k n := by
  by_cases hn : n = num a
  · rw [if_pos hn, hn, waiting, if_pos hle, first_concat, if_pos ⟨h, rfl⟩]
  · have hsame : first num (arrived ++ [a]) n = first num arrived n := by
      rw [first_concat, if_neg fun hnew => hn hnew.2.symm]
    rw [if_neg hn, waiting, hsame, waiting]

theorem waiting_succ (num : α → ℕ) (arrived : List α) (k n : ℕ) :
    waiting num arrived (k + 1) n = if n = k then none else waiting num arrived k n := by
  by_cases hn : n = k
  · rw [if_pos hn, waiting, if_neg (by omega)]
  · rw [if_neg hn, waiting, waiting]
    exact if_congr (by omega) rfl rfl

end Reassembly
