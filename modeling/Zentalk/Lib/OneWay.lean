import Mathlib.Data.List.Basic
import Mathlib.Data.List.Induction
import Mathlib.Logic.Function.Iterate

/-!
# Chains of a one-way function

Walks from different origins never meet (`iterate_origin_inj`).
-/

namespace OneWay

open Function List

variable {α β : Type*}

/-- `a` is not a value of `f`: no walk along `f` reaches it. -/
def Origin (f : α → α) (a : α) : Prop := ∀ x, f x ≠ a

/-- Walks along an injective function that start at origins meet only when they are the same. -/
theorem iterate_origin_inj {f : α → α} (hf : Injective f) {a b : α}
    (ha : Origin f a) (hb : Origin f b) {m n : Nat} (h : f^[m] a = f^[n] b) :
    a = b ∧ m = n := by
  induction m generalizing n with
  | zero =>
    cases n with
    | zero => exact ⟨h, rfl⟩
    | succ n =>
      rw [iterate_succ_apply'] at h
      exact absurd h.symm (ha _)
  | succ m ih =>
    cases n with
    | zero =>
      rw [iterate_succ_apply'] at h
      exact absurd h (hb _)
    | succ n =>
      rw [iterate_succ_apply', iterate_succ_apply'] at h
      obtain ⟨hab, hmn⟩ := ih (hf h)
      exact ⟨hab, congrArg (· + 1) hmn⟩

/-- The same for walks that mix in an input at every step. -/
theorem foldl_origin_inj {g : α → β → α}
    (hg : ∀ x y x' y', g x y = g x' y' → x = x' ∧ y = y') {a b : α}
    (ha : ∀ x y, g x y ≠ a) (hb : ∀ x y, g x y ≠ b) {l l' : List β}
    (h : l.foldl g a = l'.foldl g b) : a = b ∧ l = l' := by
  induction l using reverseRecOn generalizing l' with
  | nil =>
    cases l' using reverseRecOn with
    | nil => exact ⟨h, rfl⟩
    | append_singleton l' y =>
      rw [foldl_concat] at h
      exact absurd h.symm (ha _ _)
  | append_singleton l x ih =>
    cases l' using reverseRecOn with
    | nil =>
      rw [foldl_concat] at h
      exact absurd h (hb _ _)
    | append_singleton l' y =>
      rw [foldl_concat, foldl_concat] at h
      obtain ⟨hl, rfl⟩ := hg _ _ _ _ h
      obtain ⟨hab, rfl⟩ := ih hl
      exact ⟨hab, rfl⟩

end OneWay
