import Mathlib.Data.List.Basic
import Mathlib.Data.List.Range
import Mathlib.Logic.Function.Basic

/-!
# The receiving window, without keys

After the first gap every later skip stores wrong positions. `aligned_iff` says which arrivals
are still all read.
-/

namespace Zentalk

open List Function Nat

/-- Position on the chain, expected number, stored positions. -/
structure Window where
  position : Nat
  counter : Nat
  stored : Nat → Option Nat

namespace Window

def skip (w : Window) (x : Nat) : Window :=
  { position := w.position + (x - w.counter)
    counter := w.counter
    stored := fun y =>
      if w.counter ≤ y ∧ y < x then some (w.position + (y - w.counter)) else w.stored y }

/-- Take the position for number `x`: the stored one, or the next one of the chain. -/
def take (w : Window) (x : Nat) : Window × Nat :=
  match w.stored x with
  | some position =>
    ({ w.skip x with stored := update (w.skip x).stored x none }, position)
  | none =>
    ({ w.skip x with position := (w.skip x).position + 1, counter := w.counter + 1 },
      (w.skip x).position)

/-- Every number is at most `limit` ahead when it arrives and is taken from its own position. -/
def Aligned (limit : Nat) : Window → List Nat → Prop
  | _, [] => True
  | w, x :: xs => x - w.counter ≤ limit ∧ (w.take x).2 = x ∧ Aligned limit (w.take x).1 xs

/-- In order up to `j`, then the last number, then the rest; those above `j` increase. -/
def InWindow (limit last : Nat) (xs : List Nat) : Prop :=
  ∃ j late, xs = range j ++ last :: late ∧ last - j ≤ limit ∧
    (late.filter (j < ·)).Pairwise (· < ·)

/-- All but the last come in order, and the last is at most `limit` ahead. -/
def OneGap (limit : Nat) (xs : List Nat) : Prop :=
  xs = [] ∨ ∃ j x, xs = range j ++ [x] ∧ x - j ≤ limit

/-- A window with nothing stored, in step. -/
def level (j : Nat) : Window := ⟨j, j, fun _ => none⟩

/-! ## In order -/

variable {w : Window} {x limit j last : Nat} {xs : List Nat}

theorem skip_of_le (h : x ≤ w.counter) : w.skip x = w := by
  obtain ⟨position, counter, stored⟩ := w
  have hle : x ≤ counter := h
  have hstored : (fun y => if counter ≤ y ∧ y < x then some (position + (y - counter))
      else stored y) = stored := by
    funext y
    rw [if_neg (by omega)]
  show Window.mk (position + (x - counter)) counter _ = _
  rw [hstored, Nat.sub_eq_zero_of_le hle, Nat.add_zero]

theorem take_level (j : Nat) : (level j).take j = (level (j + 1), j) := by
  simp only [take, skip_of_le (w := level j) (le_refl j)]
  rfl

/-! ## After a gap -/

theorem take_none (hslip : w.counter < w.position) (hnone : w.stored x = none) :
    (w.take x).2 ≠ x := by
  simp only [take, hnone, skip]
  omega

theorem take_some {position : Nat} (hsome : w.stored x = some position) :
    w.take x =
      ({ w.skip x with stored := update (w.skip x).stored x none }, position) := by
  simp only [take, hsome]

theorem stored_take (hslip : w.counter < w.position) {position : Nat}
    (hsome : w.stored x = some position) {y : Nat} (hne : y ≠ x) :
    (w.take x).1.stored y = some y ↔ w.stored y = some y ∧ ¬ (w.counter ≤ y ∧ y < x) := by
  rw [take_some hsome]
  simp only [update_of_ne hne, skip]
  by_cases hrange : w.counter ≤ y ∧ y < x
  · rw [if_pos hrange]
    constructor
    · intro h
      have := Option.some.inj h
      omega
    · rintro ⟨-, h⟩
      exact absurd hrange h
  · rw [if_neg hrange]
    exact ⟨fun h => ⟨h, hrange⟩, fun h => h.1⟩

/-- Once the window is out of step, only stored positions are right, and each arrival spoils those
of lower numbers still missing. -/
theorem aligned_late (hcounter : w.counter = j + 1) (hslip : w.counter < w.position)
    (hnodup : xs.Nodup) :
    Aligned limit w xs ↔
      (∀ x ∈ xs, w.stored x = some x ∧ x - (j + 1) ≤ limit) ∧
      (xs.filter (j < ·)).Pairwise (· < ·) := by
  induction xs generalizing w with
  | nil => simp [Aligned]
  | cons x xs ih =>
    obtain ⟨hx, hnodup⟩ := nodup_cons.mp hnodup
    cases hsome : w.stored x with
    | none =>
      constructor
      · rintro ⟨-, hpos, -⟩
        exact absurd hpos (take_none hslip hsome)
      · rintro ⟨hall, -⟩
        have := (hall x mem_cons_self).1
        rw [hsome] at this
        cases this
    | some position =>
      have hcounter' : (w.take x).1.counter = j + 1 := by
        rw [take_some hsome]
        exact hcounter
      have hslip' : (w.take x).1.counter < (w.take x).1.position := by
        rw [take_some hsome]
        simp only [skip]
        omega
      have hpos : (w.take x).2 = position := by rw [take_some hsome]
      have hstored : ∀ y ∈ xs, ((w.take x).1.stored y = some y ↔
          w.stored y = some y ∧ (j < y → x < y)) := by
        intro y hy
        have hne : y ≠ x := fun heq => hx (heq ▸ hy)
        rw [stored_take hslip hsome hne, hcounter]
        refine and_congr_right fun _ => ?_
        omega
      rw [Aligned, hpos, hcounter, ih hcounter' hslip' hnodup]
      constructor
      · rintro ⟨hlimit, rfl, hall, hpair⟩
        refine ⟨?_, ?_⟩
        · rintro y hy
          rcases mem_cons.mp hy with rfl | hy
          · exact ⟨hsome, hlimit⟩
          · exact ⟨((hstored y hy).mp (hall y hy).1).1, (hall y hy).2⟩
        · rw [filter_cons]
          split
          · refine pairwise_cons.mpr ⟨?_, hpair⟩
            intro y hy
            obtain ⟨hmem, hlt⟩ := mem_filter.mp hy
            exact ((hstored y hmem).mp (hall y hmem).1).2 (of_decide_eq_true hlt)
          · exact hpair
      · rintro ⟨hall, hpair⟩
        have hhead := hall x mem_cons_self
        have hincr : ∀ y ∈ xs, j < y → x < y := by
          intro y hy hjy
          by_cases hjx : j < x
          · rw [filter_cons, if_pos (decide_eq_true hjx)] at hpair
            exact (pairwise_cons.mp hpair).1 y
              (mem_filter.mpr ⟨hy, decide_eq_true hjy⟩)
          · omega
        refine ⟨hhead.2, Option.some.inj (hsome.symm.trans hhead.1), ?_, ?_⟩
        · intro y hy
          have h := hall y (mem_cons_of_mem _ hy)
          exact ⟨(hstored y hy).mpr ⟨h.1, hincr y hy⟩, h.2⟩
        · exact hpair.sublist ((sublist_cons_self x xs).filter _)

theorem aligned_gap (hx : j < x) (hnodup : (x :: xs).Nodup) (hge : ∀ y ∈ xs, j ≤ y) :
    Aligned limit (level j) (x :: xs) ↔
      x - j ≤ limit ∧ (∀ y ∈ xs, y < x) ∧ (xs.filter (j < ·)).Pairwise (· < ·) := by
  have hstored : ∀ y, ((level j).take x).1.stored y = if j ≤ y ∧ y < x then some y else none := by
    intro y
    show (if j ≤ y ∧ y < x then some (j + (y - j)) else none) = _
    split
    · next h => rw [Nat.add_sub_cancel' h.1]
    · rfl
  have hpos : ((level j).take x).2 = x := Nat.add_sub_cancel' hx.le
  have hslip : ((level j).take x).1.counter < ((level j).take x).1.position := by
    show j + 1 < j + (x - j) + 1
    omega
  rw [Aligned, hpos, aligned_late (j := j) rfl hslip (nodup_cons.mp hnodup).2]
  constructor
  · rintro ⟨hlimit, -, hall, hpair⟩
    refine ⟨hlimit, fun y hy => ?_, hpair⟩
    have h := (hall y hy).1
    rw [hstored] at h
    split at h
    · next hrange => exact hrange.2
    · cases h
  · rintro ⟨hlimit, hlt, hpair⟩
    refine ⟨hlimit, rfl, fun y hy => ⟨?_, ?_⟩, hpair⟩
    · rw [hstored, if_pos ⟨hge y hy, hlt y hy⟩]
    · have := hlt y hy
      omega

/-- `InWindow` for a window that is in step at `j`. -/
def InWindowFrom (limit last j : Nat) (xs : List Nat) : Prop :=
  ∃ i late, xs = range' j i ++ last :: late ∧ last - (j + i) ≤ limit ∧
    (late.filter (j + i < ·)).Pairwise (· < ·)

theorem inWindowFrom_gap (hx : j < x) :
    InWindowFrom limit last j (x :: xs) ↔
      x = last ∧ x - j ≤ limit ∧ (xs.filter (j < ·)).Pairwise (· < ·) := by
  constructor
  · rintro ⟨i, late, heq, hlimit, hpair⟩
    cases i with
    | zero =>
      obtain ⟨rfl, rfl⟩ := cons.inj heq
      exact ⟨rfl, hlimit, hpair⟩
    | succ i =>
      have := (cons.inj heq).1
      omega
  · rintro ⟨rfl, hlimit, hpair⟩
    exact ⟨0, xs, rfl, hlimit, hpair⟩

theorem inWindowFrom_next (hj : j < last) :
    InWindowFrom limit last j (j :: xs) ↔ InWindowFrom limit last (j + 1) xs := by
  have hshift : ∀ i, j + 1 + i = j + (i + 1) := fun i => by omega
  constructor
  · rintro ⟨i, late, heq, hlimit, hpair⟩
    cases i with
    | zero =>
      have := (cons.inj heq).1
      omega
    | succ i =>
      rw [← hshift i] at hlimit hpair
      exact ⟨i, late, (cons.inj heq).2, hlimit, hpair⟩
  · rintro ⟨i, late, rfl, hlimit, hpair⟩
    rw [hshift i] at hlimit hpair
    exact ⟨i + 1, late, by rw [range'_succ]; rfl, hlimit, hpair⟩

theorem aligned_level (hnodup : xs.Nodup) (hrange : ∀ x ∈ xs, j ≤ x ∧ x ≤ last)
    (hlast : last ∈ xs) :
    Aligned limit (level j) xs ↔ InWindowFrom limit last j xs := by
  induction xs generalizing j with
  | nil => cases hlast
  | cons x xs ih =>
    obtain ⟨hx, hnodup'⟩ := nodup_cons.mp hnodup
    have hne : ∀ y ∈ xs, y ≠ x := fun y hy heq => hx (heq ▸ hy)
    have htail : ∀ y ∈ xs, j ≤ y ∧ y ≤ last := fun y hy => hrange y (mem_cons_of_mem _ hy)
    obtain ⟨hjx, hxlast⟩ := hrange x mem_cons_self
    by_cases hgap : j < x
    · -- everything after `x` is below it exactly when `x` is the last number
      rw [aligned_gap hgap hnodup fun y hy => (htail y hy).1, inWindowFrom_gap hgap]
      have hmax : (∀ y ∈ xs, y < x) ↔ x = last := by
        constructor
        · intro hlt
          rcases mem_cons.mp hlast with rfl | hmem
          · rfl
          · exact absurd (hlt last hmem) (not_lt.mpr hxlast)
        · rintro rfl y hy
          exact lt_of_le_of_ne (htail y hy).2 (hne y hy)
      rw [hmax]
      exact and_left_comm
    · obtain rfl : x = j := by omega
      have hhead : x - (level x).counter ≤ limit := by
        show x - x ≤ limit
        omega
      rw [Aligned, take_level]
      rcases mem_cons.mp hlast with rfl | hmem
      · -- nothing is left to follow the last number
        have hnil : xs = [] := by
          refine eq_nil_iff_forall_not_mem.mpr fun y hy => hne y hy ?_
          exact le_antisymm (htail y hy).2 (htail y hy).1
        subst hnil
        exact ⟨fun _ => ⟨0, [], rfl, by omega, Pairwise.nil⟩, fun _ => ⟨hhead, rfl, trivial⟩⟩
      · have hnext : ∀ y ∈ xs, x + 1 ≤ y ∧ y ≤ last := fun y hy =>
          ⟨lt_of_le_of_ne (htail y hy).1 (hne y hy).symm, (htail y hy).2⟩
        rw [inWindowFrom_next (hnext last hmem).1, ← ih hnodup' hnext hmem]
        exact ⟨fun h => h.2.2, fun h => ⟨hhead, rfl, h⟩⟩

theorem aligned_iff (hnodup : xs.Nodup) (hle : ∀ x ∈ xs, x ≤ last) (hlast : last ∈ xs) :
    Aligned limit (level 0) xs ↔ InWindow limit last xs := by
  rw [aligned_level hnodup (fun x hx => ⟨Nat.zero_le x, hle x hx⟩) hlast]
  simp only [InWindowFrom, InWindow, range_eq_range', Nat.zero_add]

/-- Numbers in increasing order: nothing may follow the first one behind a gap. -/
theorem aligned_increasing (hincr : xs.Pairwise (· < ·)) :
    Aligned limit (level 0) xs ↔ OneGap limit xs := by
  rcases eq_nil_or_concat xs with rfl | ⟨ys, last, rfl⟩
  · exact ⟨fun _ => .inl rfl, fun _ => trivial⟩
  rw [concat_eq_append] at hincr ⊢
  have hle : ∀ x ∈ ys ++ [last], x ≤ last := by
    intro x hx
    rcases mem_append.mp hx with hx | hx
    · exact ((pairwise_append.mp hincr).2.2 x hx last (mem_singleton_self last)).le
    · exact (mem_singleton.mp hx).le
  rw [aligned_iff (hincr.imp ne_of_lt) hle (by simp)]
  constructor
  · rintro ⟨j, late, heq, hlimit, -⟩
    -- whatever follows the last number would have to be larger
    have hlate : late = [] := by
      rw [heq] at hincr hle
      refine eq_nil_iff_forall_not_mem.mpr fun z hz => ?_
      have hlt := (pairwise_cons.mp (pairwise_append.mp hincr).2.1).1 z hz
      have := hle z (mem_append_right _ (mem_cons_of_mem _ hz))
      omega
    subst hlate
    exact .inr ⟨j, last, heq, hlimit⟩
  · rintro (h | ⟨j, x, heq, hlimit⟩)
    · exact absurd h (append_ne_nil_of_right_ne_nil _ (cons_ne_nil _ _))
    · obtain ⟨rfl, hlast⟩ := append_inj' heq rfl
      obtain rfl := singleton_inj.mp hlast
      exact ⟨j, [], rfl, hlimit, Pairwise.nil⟩

end Window

end Zentalk
