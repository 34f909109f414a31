import Zentalk.Lib.Run

/-!
# Steps that make no difference

`Run.rearrange` takes hidden steps out of a run and puts others in, anywhere.
-/

namespace Runs

open List

variable {σ ε : Type*} {step : σ → ε → σ → Prop} {s₀ : σ} {hidden : ε → Bool}

def visible (hidden : ε → Bool) (evs : List ε) : List ε := evs.filter fun e => !hidden e

theorem visible_snoc_of_hidden {e : ε} (h : hidden e = true) (evs : List ε) :
    visible hidden (evs ++ [e]) = visible hidden evs := by
  simp [visible, h]

theorem visible_snoc {e : ε} (h : hidden e = false) (evs : List ε) :
    visible hidden (evs ++ [e]) = visible hidden evs ++ [e] := by
  simp [visible, h]

/-- Hidden steps are not noticed. The relation and the condition may look at the visible labels
shown so far. -/
structure Hides (step : σ → ε → σ → Prop) (hidden : ε → Bool) (G : List ε → σ → ε → Prop)
    (R : List ε → σ → σ → Prop) : Prop where
  left : ∀ seen e s s' t, R seen s t → hidden e = true → step s e s' → R seen s' t
  right : ∀ seen e s t, R seen s t → hidden e = true → ∃ t', step t e t' ∧ R seen s t'
  both : ∀ seen e s s' t, R seen s t → hidden e = false → G seen s e → step s e s' →
    ∃ t', step t e t' ∧ R (seen ++ [e]) s' t'

variable {G : List ε → σ → ε → Prop} {R : List ε → σ → σ → Prop}

/-- Hidden steps at the end of the other run. -/
theorem Hides.absorb (hides : Hides step hidden G R) {seen evs : List ε} {e : ε} {s t : σ}
    (he : hidden e = true) (hrun : Run step s₀ evs t) (hR : R seen s t) :
    ∃ t', Run step s₀ (evs ++ [e]) t' ∧ R seen s t' := by
  obtain ⟨t', hstep, hR'⟩ := hides.right seen e s t hR he
  exact ⟨t', hrun.snoc hstep, hR'⟩

/-- Every list of labels with the same visible ones has a run, to a related state. -/
theorem Run.rearrange (hides : Hides step hidden G R) (init : R [] s₀ s₀) {evs : List ε} {s : σ}
    (h : Run step s₀ evs s)
    (hG : Guarded step s₀ (fun pre s e => hidden e = false → G (visible hidden pre) s e) evs)
    {evs' : List ε} (heq : visible hidden evs' = visible hidden evs) :
    ∃ t, Run step s₀ evs' t ∧ R (visible hidden evs) s t := by
  induction h generalizing evs' with
  | nil =>
    induction evs' using reverseRecOn with
    | nil => exact ⟨s₀, .nil, init⟩
    | append_singleton evs' e ih =>
      cases he : hidden e with
      | true =>
        rw [visible_snoc_of_hidden he] at heq
        obtain ⟨t, hrun, hR⟩ := ih heq
        exact hides.absorb he hrun hR
      | false =>
        rw [visible_snoc he] at heq
        exact absurd heq (append_ne_nil_of_right_ne_nil _ (cons_ne_nil e []))
  | @snoc evs e s s' hr hs ih =>
    cases he : hidden e with
    | true =>
      rw [visible_snoc_of_hidden he] at heq ⊢
      obtain ⟨t, hrun, hR⟩ := ih hG.init heq
      exact ⟨t, hrun, hides.left _ e s s' t hR he hs⟩
    | false =>
      rw [visible_snoc he] at heq ⊢
      -- the step is matched where the other list has its label; what follows there is hidden
      induction evs' using reverseRecOn with
      | nil => exact absurd heq.symm (append_ne_nil_of_right_ne_nil _ (cons_ne_nil e []))
      | append_singleton evs' e' ih' =>
        cases he' : hidden e' with
        | true =>
          rw [visible_snoc_of_hidden he'] at heq
          obtain ⟨t, hrun, hR⟩ := ih' heq
          exact hides.absorb he' hrun hR
        | false =>
          rw [visible_snoc he'] at heq
          obtain ⟨hsame, hlast⟩ := append_inj' heq rfl
          cases hlast
          obtain ⟨t, hrun, hR⟩ := ih hG.init hsame
          obtain ⟨t', hstep, hR'⟩ := hides.both _ e s s' t hR he (hG.last hr he) hs
          exact ⟨t', hrun.snoc hstep, hR'⟩

end Runs
