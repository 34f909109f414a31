import Mathlib.Data.List.Basic
import Mathlib.Data.List.Induction
import Mathlib.Logic.Function.Basic
import Mathlib.Logic.Relation

/-!
# Runs of a labelled step relation

`Run step s₀ evs s` shows the labels `evs`, oldest first. `Run.invariant` is the induction over a
run, and `Run.always_iff_guarded` turns an invariant into a condition on each step.
-/

namespace Runs

open List Function

variable {σ ε : Type*} {step : σ → ε → σ → Prop} {s₀ : σ}

/-- The runs of `step` from `s₀`, with the labels they show. -/
inductive Run (step : σ → ε → σ → Prop) (s₀ : σ) : List ε → σ → Prop
  | nil : Run step s₀ [] s₀
  | snoc {evs : List ε} {e : ε} {s s' : σ} :
      Run step s₀ evs s → step s e s' → Run step s₀ (evs ++ [e]) s'

variable {I : List ε → σ → Prop} {evs : List ε} {s s' : σ} {e : ε} {G : List ε → σ → ε → Prop}

/-- The invariant rule, also for invariants about the labels shown so far. -/
theorem Run.trace_invariant (init : I [] s₀)
    (keep : ∀ evs e s s', I evs s → step s e s' → I (evs ++ [e]) s') (h : Run step s₀ evs s) :
    I evs s := by
  induction h with
  | nil => exact init
  | snoc _ hs ih => exact keep _ _ _ _ ih hs

/-- The invariant rule for a property of states alone. -/
theorem Run.invariant {I : σ → Prop} (init : I s₀) (keep : ∀ e s s', I s → step s e s' → I s')
    (h : Run step s₀ evs s) : I s :=
  Run.trace_invariant init (fun _ e s s' hi hs => keep e s s' hi hs) h

theorem Run.split {pre post : List ε} (h : Run step s₀ (pre ++ e :: post) s) :
    ∃ s₁ s₂, Run step s₀ pre s₁ ∧ step s₁ e s₂ := by
  generalize hevs : pre ++ e :: post = evs at h
  induction h generalizing post with
  | nil => simp at hevs
  | @snoc evs e' s s' hr hs ih =>
    rcases eq_nil_or_concat post with rfl | ⟨post', x, rfl⟩
    · obtain ⟨rfl, he⟩ := append_inj' hevs rfl
      cases he
      exact ⟨s, s', hr, hs⟩
    · rw [concat_eq_append, ← cons_append, ← append_assoc] at hevs
      exact ih (append_inj' hevs rfl).1

theorem Run.cons (hs : step s₀ e s) (h : Run step s evs s') : Run step s₀ (e :: evs) s' := by
  induction h with
  | nil => exact Run.nil.snoc hs
  | snoc _ hs' ih => exact ih.snoc hs'

theorem Run.append {evs' : List ε} (h : Run step s₀ evs s) (h' : Run step s evs' s') :
    Run step s₀ (evs ++ evs') s' := by
  induction h' with
  | nil => rwa [append_nil]
  | snoc _ hs ih =>
    rw [← append_assoc]
    exact ih.snoc hs

theorem Run.nil_inv (h : Run step s₀ [] s) : s₀ = s := by
  generalize hevs : ([] : List ε) = evs at h
  cases h with
  | nil => rfl
  | snoc => simp at hevs

theorem Run.snoc_inv (h : Run step s₀ (evs ++ [e]) s) : ∃ s', Run step s₀ evs s' ∧ step s' e s := by
  generalize hevs : evs ++ [e] = all at h
  cases h with
  | nil => simp at hevs
  | snoc hr hs =>
    obtain ⟨rfl, he⟩ := append_inj' hevs rfl
    cases he
    exact ⟨_, hr, hs⟩

theorem Run.first (h : Run step s₀ evs s) :
    s = s₀ ∨ ∃ e s₁ more, step s₀ e s₁ ∧ Run step s₁ more s := by
  induction h with
  | nil => exact .inl rfl
  | snoc _ hs ih =>
    rcases ih with rfl | ⟨e, s₁, more, hfirst, hmore⟩
    · exact .inr ⟨_, _, [], hs, .nil⟩
    · exact .inr ⟨e, s₁, _, hfirst, hmore.snoc hs⟩

theorem Run.unique (hdet : ∀ s e s₁ s₂, step s e s₁ → step s e s₂ → s₁ = s₂) (h : Run step s₀ evs s)
    (h' : Run step s₀ evs s') : s = s' := by
  induction h generalizing s' with
  | nil => exact h'.nil_inv
  | snoc _ hs ih =>
    obtain ⟨s₁, hr₁, hs₁⟩ := h'.snoc_inv
    rw [ih hr₁] at hs
    exact hdet _ _ _ _ hs hs₁

variable {measure : σ → ℕ}

/-- A measure that every step lowers bounds the length of every run. -/
theorem Run.length_le {I : σ → Prop} (init : I s₀)
    (keep : ∀ e s s', I s → step s e s' → I s' ∧ measure s' < measure s) (h : Run step s₀ evs s) :
    evs.length + measure s ≤ measure s₀ := by
  have hboth : I s ∧ evs.length + measure s ≤ measure s₀ := by
    refine Run.trace_invariant
      (I := fun evs s => I s ∧ evs.length + measure s ≤ measure s₀) ⟨init, by simp⟩ ?_ h
    rintro evs e s s' ⟨hi, hle⟩ hs
    obtain ⟨hi', hlt⟩ := keep e s s' hi hs
    refine ⟨hi', ?_⟩
    rw [length_append, length_singleton]
    omega
  exact hboth.2

/-- Every run from `s₀` comes to a final state within `bound` steps. -/
def EndsWithin (step : σ → ε → σ → Prop) (s₀ : σ) (Final : σ → Prop) (bound : ℕ) : Prop :=
  ∀ evs s, Run step s₀ evs s → evs.length ≤ bound ∧ (¬ Final s → ∃ e s', step s e s')

theorem EndsWithin.of_measure {I Final : σ → Prop} {bound : ℕ} (init : I s₀)
    (keep : ∀ e s s', I s → step s e s' → I s' ∧ measure s' < measure s)
    (progress : ∀ s, ¬ Final s → ∃ e s', step s e s') (hbound : measure s₀ ≤ bound) :
    EndsWithin step s₀ Final bound := by
  intro evs s h
  have hle := Run.length_le init keep h
  exact ⟨by omega, progress s⟩

/-! ## Runs whose steps meet a condition -/

/-- Every step of the run meets `G`, given the labels before it, the state and its own label. -/
def Guarded (step : σ → ε → σ → Prop) (s₀ : σ) (G : List ε → σ → ε → Prop) (evs : List ε) : Prop :=
  ∀ pre e post s, evs = pre ++ e :: post → Run step s₀ pre s → G pre s e

theorem Guarded.init {more : List ε} (h : Guarded step s₀ G (evs ++ more)) :
    Guarded step s₀ G evs := by
  intro pre e post s heq hpre
  exact h pre e (post ++ more) s (by rw [heq, append_assoc, cons_append]) hpre

theorem Guarded.last (h : Guarded step s₀ G (evs ++ [e])) (hr : Run step s₀ evs s) : G evs s e :=
  h evs e [] s rfl hr

theorem Guarded.nil : Guarded step s₀ G [] := by
  intro pre e post s heq
  simp at heq

theorem Guarded.and {G' : List ε → σ → ε → Prop} (h : Guarded step s₀ G evs)
    (h' : Guarded step s₀ G' evs) :
    Guarded step s₀ (fun pre s e => G pre s e ∧ G' pre s e) evs := by
  intro pre e post s heq hpre
  exact ⟨h pre e post s heq hpre, h' pre e post s heq hpre⟩

theorem Guarded.snoc (h : Guarded step s₀ G evs) (hlast : ∀ s, Run step s₀ evs s → G evs s e) :
    Guarded step s₀ G (evs ++ [e]) := by
  intro pre e' post s heq hpre
  rcases eq_nil_or_concat post with rfl | ⟨post', x, rfl⟩
  · obtain ⟨rfl, he⟩ := append_inj' heq rfl
    cases he
    exact hlast s hpre
  · rw [concat_eq_append, ← cons_append, ← append_assoc] at heq
    exact h pre e' post' s (append_inj' heq rfl).1 hpre

theorem Guarded.append_of_free (h : Guarded step s₀ G evs) (more : List ε)
    (hfree : ∀ e ∈ more, ∀ pre s, G pre s e) : Guarded step s₀ G (evs ++ more) := by
  induction more using List.reverseRecOn with
  | nil => rwa [append_nil]
  | append_singleton more e ih =>
    rw [← append_assoc]
    refine (ih fun e' he' => hfree e' (mem_append_left _ he')).snoc fun s _ => ?_
    exact hfree e (mem_append_right _ mem_cons_self) _ s

theorem Guarded.snoc_of_run (hdet : ∀ s e s₁ s₂, step s e s₁ → step s e s₂ → s₁ = s₂)
    (h : Guarded step s₀ G evs) (hr : Run step s₀ evs s) (hlast : G evs s e) :
    Guarded step s₀ G (evs ++ [e]) := by
  refine h.snoc fun s' hr' => ?_
  rw [← Run.unique hdet hr hr']
  exact hlast

/-- The invariant rule for runs whose steps meet a condition. -/
theorem Run.guarded_invariant (init : I [] s₀)
    (keep : ∀ evs e s s', I evs s → G evs s e → step s e s' → I (evs ++ [e]) s')
    (h : Run step s₀ evs s) (hG : Guarded step s₀ G evs) : I evs s := by
  induction h with
  | nil => exact init
  | snoc hr hs ih => exact keep _ _ _ _ (ih hG.init) (hG.last hr) hs

/-- When a step keeps the invariant exactly if it meets the condition, the invariant holds all along
a run exactly if every step does. -/
theorem Run.trace_always_iff_guarded (hdet : ∀ s e s₁ s₂, step s e s₁ → step s e s₂ → s₁ = s₂)
    (init : I [] s₀) (keep : ∀ evs e s s', Run step s₀ evs s → I evs s → step s e s' →
      (I (evs ++ [e]) s' ↔ G evs s e)) (h : Run step s₀ evs s) :
    (∀ pre post s', evs = pre ++ post → Run step s₀ pre s' → I pre s') ↔
      Guarded step s₀ G evs := by
  constructor
  · intro halways pre e post s₁ heq hpre
    obtain ⟨s₁', s₂, hrun, hstep⟩ := Run.split (heq ▸ h)
    obtain rfl := Run.unique hdet hrun hpre
    have hbefore := halways pre (e :: post) s₁' heq hpre
    have hafter := halways (pre ++ [e]) post s₂ (by simp [heq]) (hrun.snoc hstep)
    exact (keep pre e s₁' s₂ hpre hbefore hstep).mp hafter
  · intro hguard pre post s' heq hpre
    have hboth : Run step s₀ pre s' ∧ I pre s' := by
      refine Run.guarded_invariant (I := fun evs s => Run step s₀ evs s ∧ I evs s) ⟨.nil, init⟩ ?_
        hpre (heq ▸ hguard).init
      rintro evs e s s' ⟨hr, hi⟩ hg hs
      exact ⟨hr.snoc hs, (keep evs e s s' hr hi hs).mpr hg⟩
    exact hboth.2

/-- The same for a property of states alone. -/
theorem Run.always_iff_guarded {I : σ → Prop}
    (hdet : ∀ s e s₁ s₂, step s e s₁ → step s e s₂ → s₁ = s₂) (init : I s₀)
    (keep : ∀ evs e s s', I s → step s e s' → (I s' ↔ G evs s e)) (h : Run step s₀ evs s) :
    (∀ pre post s', evs = pre ++ post → Run step s₀ pre s' → I s') ↔ Guarded step s₀ G evs :=
  Run.trace_always_iff_guarded hdet init
    (fun evs e s s' _ hi hs => keep evs e s s' hi hs) h

/-! ## Independent components -/

variable {ι : Type*} [DecidableEq ι]

inductive Each (step : σ → ε → σ → Prop) : (ι → σ) → ι × ε → (ι → σ) → Prop
  | move (i : ι) {f : ι → σ} {e : ε} {s : σ} :
      step (f i) e s → Each step f (i, e) (update f i s)

def labelsOf (i : ι) (evs : List (ι × ε)) : List ε :=
  evs.filterMap fun e => if e.1 = i then some e.2 else none

theorem mem_labelsOf {i : ι} {evs : List (ι × ε)} : e ∈ labelsOf i evs ↔ (i, e) ∈ evs := by
  unfold labelsOf
  rw [mem_filterMap]
  constructor
  · rintro ⟨⟨j, e'⟩, hmem, heq⟩
    split at heq
    · next hj =>
      obtain rfl := Option.some.inj heq
      obtain rfl : j = i := hj
      exact hmem
    · cases heq
  · intro hmem
    exact ⟨(i, e), hmem, if_pos rfl⟩

theorem Run.component {f₀ f : ι → σ} {evs : List (ι × ε)} (h : Run (Each step) f₀ evs f)
    (i : ι) : Run step (f₀ i) (labelsOf i evs) (f i) := by
  induction h with
  | nil => exact Run.nil
  | snoc _ hs ih =>
    cases hs with
    | @move j f e s hstep =>
      unfold labelsOf
      rw [filterMap_append]
      by_cases hj : j = i
      · subst hj
        rw [update_self]
        simp only [filterMap_cons, filterMap_nil, if_true]
        exact ih.snoc hstep
      · rw [update_of_ne (Ne.symm hj)]
        simp only [filterMap_cons, filterMap_nil, if_neg hj, append_nil]
        exact ih

end Runs
