import Mathlib.Data.List.FinRange
import Mathlib.Data.List.Count

/-!
# Workers with a slot each

Each part ends up as if its item had run alone (`Owns.foldl`).
-/

namespace Slots

open List Function

/-! ## Counting slots -/

variable {n : ℕ}

def count (P : Fin n → Bool) : ℕ := (List.finRange n).countP P

variable {P Q : Fin n → Bool}

theorem count_mono (h : ∀ i, P i = true → Q i = true) : count P ≤ count Q :=
  countP_mono_left fun i _ => h i

theorem count_congr (h : ∀ i, P i = Q i) : count P = count Q := by
  rw [funext h]

theorem count_le (P : Fin n → Bool) : count P ≤ n := countP_le_length.trans_eq (length_finRange)

theorem le_count_iff (P : Fin n → Bool) : n ≤ count P ↔ ∀ i, P i = true := by
  have hall : (List.finRange n).countP P = (List.finRange n).length ↔ ∀ i, P i = true := by
    rw [countP_eq_length]
    simp
  rw [← hall, length_finRange]
  exact ⟨fun h => (count_le P).antisymm h, fun h => h.ge⟩

/-! ## Workers -/

variable {ι σ β : Type*}

/-- The worker of item `i` acts on its own part `view i` of the state by `act i`, and leaves the
parts of the others. -/
structure Owns (step : σ → ι → σ) (view : ι → σ → β) (act : ι → β → β) : Prop where
  own : ∀ s i, view i (step s i) = act i (view i s)
  other : ∀ s i j, i ≠ j → view j (step s i) = view j s

namespace Owns

variable {step : σ → ι → σ} {view : ι → σ → β} {act : ι → β → β} {order : List ι}

theorem foldl_of_notMem (h : Owns step view act) {j : ι} (hj : j ∉ order) (s : σ) :
    view j (order.foldl step s) = view j s := by
  induction order generalizing s with
  | nil => rfl
  | cons i order ih =>
    rw [mem_cons, not_or] at hj
    rw [foldl_cons, ih hj.2, h.other s i j (Ne.symm hj.1)]

/-- Each part ends up as if its worker had run alone. -/
theorem foldl [DecidableEq ι] (h : Owns step view act) (hnodup : order.Nodup) (s : σ) (j : ι) :
    view j (order.foldl step s) = if j ∈ order then act j (view j s) else view j s := by
  induction order generalizing s with
  | nil => rfl
  | cons i order ih =>
    obtain ⟨hi, hnodup⟩ := nodup_cons.mp hnodup
    rw [foldl_cons]
    by_cases hj : j = i
    · subst hj
      rw [h.foldl_of_notMem hi, h.own, if_pos mem_cons_self]
    · rw [ih hnodup, h.other s i j (Ne.symm hj)]
      simp only [mem_cons, hj, false_or]

theorem count (h : Owns step view act) (hnodup : order.Nodup) (total : σ → ℕ) (hit : ι → β → Bool)
    (htotal : ∀ s i, total (step s i) = total s + if hit i (view i s) then 1 else 0) (s : σ) :
    total (order.foldl step s) = total s + order.countP fun i => hit i (view i s) := by
  induction order generalizing s with
  | nil => rfl
  | cons i order ih =>
    obtain ⟨hi, hnodup⟩ := nodup_cons.mp hnodup
    -- the parts of the items to come are as they were at the start
    have hrest : (order.countP fun j => hit j (view j (step s i))) =
        order.countP fun j => hit j (view j s) := by
      refine countP_congr fun j hj => ?_
      rw [h.other s i j fun heq => hi (heq ▸ hj)]
    rw [foldl_cons, ih hnodup, htotal, hrest, countP_cons]
    omega

end Owns

/-- Workers that may write one slot: it ends with the value that those who write it agree on. -/
theorem foldl_write [DecidableEq β] {γ : Type*} (slot : ι → β) (value : ι → γ) {b : β} {v : γ}
    {order : List ι} (hvalue : ∀ i ∈ order, slot i = b → value i = v) {f : β → γ}
    (h : f b = v ∨ ∃ i ∈ order, slot i = b) :
    order.foldl (fun f i => update f (slot i) (value i)) f b = v := by
  induction order generalizing f with
  | nil => simpa using h
  | cons i order ih =>
    rw [forall_mem_cons] at hvalue
    refine ih hvalue.2 ?_
    by_cases hi : slot i = b
    · subst hi
      exact .inl ((update_self ..).trans (hvalue.1 rfl))
    · simp only [update_of_ne (Ne.symm hi)]
      simpa [hi] using h

/-- What every worker keeps holds after all of them. -/
theorem foldl_keeps {step : σ → ι → σ} {I : σ → Prop} (hstep : ∀ s i, I s → I (step s i))
    (order : List ι) {s : σ} (h : I s) : I (order.foldl step s) := by
  induction order generalizing s with
  | nil => exact h
  | cons i order ih => exact ih (hstep s i h)

end Slots
