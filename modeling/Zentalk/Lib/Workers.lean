import Mathlib.Algebra.Ring.Nat
import Mathlib.Data.List.Basic

/-!
# Workers that are started together and waited for

A goroutine for each item changes what they share when it starts and when it finishes.

Results:
1. `Pool.exists_step`, `Job.Step.remaining_lt`: all of them finish.
2. `Job.Step.tracked`: an invariant of what they share.
-/

namespace Workers

open List

variable {ι σ : Type*}

inductive Status
  | waiting
  | started
  | finished
deriving DecidableEq

/-- What a worker does to what is shared when it starts and when it finishes, which depends on its
place in the list too; `none` is a panic. -/
structure Job (ι σ : Type*) where
  start : ι → σ → σ
  finish : ℕ → ι → σ → Option σ

/-- The workers, and what they share. -/
structure Pool (ι σ : Type*) where
  tasks : List (ι × Status)
  shared : σ

namespace Pool

/-- A worker for each item, before any of them runs. -/
def launch (items : List ι) (shared : σ) : Pool ι σ := ⟨items.map fun x => (x, .waiting), shared⟩

def Done (pool : Pool ι σ) : Prop := ∀ task ∈ pool.tasks, task.2 = .finished

/-- The pool after worker `i`, that of `x`, has moved on. -/
def move (pool : Pool ι σ) (i : ℕ) (x : ι) (status : Status) (shared : σ) : Pool ι σ :=
  ⟨pool.tasks.set i (x, status), shared⟩

end Pool

/-- One worker starts or finishes. -/
inductive Job.Step (job : Job ι σ) : Pool ι σ → Pool ι σ → Prop
  | start {pool : Pool ι σ} {i : ℕ} {x : ι} : pool.tasks[i]? = some (x, .waiting) →
      Step job pool (pool.move i x .started (job.start x pool.shared))
  | finish {pool : Pool ι σ} {i : ℕ} {x : ι} {shared : σ} : pool.tasks[i]? = some (x, .started) →
      job.finish i x pool.shared = some shared →
      Step job pool (pool.move i x .finished shared)

def Job.Crashes (job : Job ι σ) (pool : Pool ι σ) : Prop :=
  ∃ i x, pool.tasks[i]? = some (x, .started) ∧ job.finish i x pool.shared = none

variable {job : Job ι σ} {pool pool' : Pool ι σ}

/-! ## The wait ends -/

def Status.remaining : Status → ℕ
  | waiting => 2
  | started => 1
  | finished => 0

@[simp] theorem Status.remaining_waiting : Status.waiting.remaining = 2 := rfl

@[simp] theorem Status.remaining_started : Status.started.remaining = 1 := rfl

@[simp] theorem Status.remaining_finished : Status.finished.remaining = 0 := rfl

/-- How many steps all workers have ahead of them. -/
def Pool.remaining (pool : Pool ι σ) : ℕ := (pool.tasks.map fun task => task.2.remaining).sum

theorem Pool.remaining_launch (items : List ι) (shared : σ) :
    (Pool.launch items shared).remaining = 2 * items.length := by
  rw [remaining, launch]
  induction items with
  | nil => rfl
  | cons x items ih =>
    rw [map_cons, map_cons, sum_cons, ih, Status.remaining_waiting, length_cons]
    omega

theorem sum_remaining_set {tasks : List (ι × Status)} {i : ℕ} {x : ι} {status : Status}
    (h : tasks[i]? = some (x, status)) (task : ι × Status) :
    ((tasks.set i task).map fun t => t.2.remaining).sum + status.remaining =
      (tasks.map fun t => t.2.remaining).sum + task.2.remaining := by
  induction tasks generalizing i with
  | nil => cases h
  | cons t tasks ih =>
    cases i with
    | zero =>
      obtain rfl := Option.some.inj h
      simp
      omega
    | succ i =>
      have hrest := ih h
      simp only [set_cons_succ, map_cons, sum_cons]
      omega

theorem Job.Step.remaining_lt (h : job.Step pool pool') : pool'.remaining < pool.remaining := by
  cases h with
  | @start i x hi =>
    have hsum := sum_remaining_set hi (x, .started)
    rw [Status.remaining_waiting, Status.remaining_started] at hsum
    simp only [Pool.remaining, Pool.move]
    omega
  | @finish i x _ hi _ =>
    have hsum := sum_remaining_set hi (x, .finished)
    rw [Status.remaining_started, Status.remaining_finished] at hsum
    simp only [Pool.remaining, Pool.move]
    omega

theorem Pool.exists_step (job : Job ι σ) (h : ¬ pool.Done) :
    (∃ pool', job.Step pool pool') ∨ job.Crashes pool := by
  simp only [Done, not_forall] at h
  obtain ⟨⟨x, status⟩, hmem, hne⟩ := h
  obtain ⟨i, hi⟩ := getElem?_of_mem hmem
  cases status with
  | waiting => exact .inl ⟨_, .start hi⟩
  | started =>
    cases hfinish : job.finish i x pool.shared with
    | none => exact .inr ⟨i, x, hi, hfinish⟩
    | some shared => exact .inl ⟨_, .finish hi hfinish⟩
  | finished => exact absurd rfl hne

/-! ## What holds over every interleaving -/

theorem Job.Step.items (h : job.Step pool pool') :
    pool'.tasks.map Prod.fst = pool.tasks.map Prod.fst := by
  have hset {i : ℕ} {x : ι} {status status' : Status} (hi : pool.tasks[i]? = some (x, status)) :
      (pool.tasks.set i (x, status')).map Prod.fst = pool.tasks.map Prod.fst := by
    rw [map_set]
    refine ext_getElem? fun j => ?_
    rw [getElem?_set]
    split
    · next hj =>
      subst hj
      obtain ⟨hlt, heq⟩ := List.getElem?_eq_some_iff.mp hi
      simp [hlt, heq]
    · rfl
  cases h with
  | start hi => exact hset hi
  | finish hi => exact hset hi

/-- A property that the other workers keep, and the one that moves too. -/
theorem Job.Step.tracked {R : ℕ → ι → Status → σ → Prop} (h : job.Step pool pool')
    (hstart : ∀ x shared j y status, R j y status shared → R j y status (job.start x shared))
    (hfinish : ∀ i x shared shared' j y status, job.finish i x shared = some shared' →
      R j y status shared → R j y status shared')
    (hstarted : ∀ i x shared, R i x .waiting shared → R i x .started (job.start x shared))
    (hfinished : ∀ i x shared shared', job.finish i x shared = some shared' →
      R i x .started shared → R i x .finished shared')
    (hR : ∀ i x status, pool.tasks[i]? = some (x, status) → R i x status pool.shared) :
    ∀ i x status, pool'.tasks[i]? = some (x, status) → R i x status pool'.shared := by
  intro j y status hj
  cases h with
  | @start i x hi =>
    rw [Pool.move, getElem?_set] at hj
    split at hj
    · next heq =>
      subst heq
      split at hj
      · cases hj
        exact hstarted i y pool.shared (hR i y _ hi)
      · cases hj
    · exact hstart x pool.shared j y status (hR j y status hj)
  | @finish i x shared hi hshared =>
    rw [Pool.move, getElem?_set] at hj
    split at hj
    · next heq =>
      subst heq
      split at hj
      · cases hj
        exact hfinished i y pool.shared shared hshared (hR i y _ hi)
      · cases hj
    · exact hfinish i x pool.shared shared j y status hshared (hR j y status hj)

end Workers
