import Zentalk.Lib.Run

/-!
# Writers of records in two parts

`Alone` is the condition that keeps records whole (`whole_run`).
-/

namespace TwoPart

open Runs List Function

variable {ι α β : Type*} {head : α → List β} {tail : α → Option (List β)}

/-- The log, and for each writer the record whose second part it has still to write. -/
structure State (ι α β : Type*) where
  log : List β
  midway : ι → Option α

def State.init : State ι α β := ⟨[], fun _ => none⟩

inductive Event (ι α : Type*)
  | began (i : ι) (a : α)
  | gaveUp (i : ι) (a : α)
  | ended (i : ι)
  | cut (i : ι)

inductive Step [DecidableEq ι] (head : α → List β) (tail : α → Option (List β)) :
    State ι α β → Event ι α → State ι α β → Prop
  | began {s : State ι α β} (i : ι) (a : α) : s.midway i = none →
      Step head tail s (.began i a)
        ⟨s.log ++ head a, update s.midway i ((tail a).map fun _ => a)⟩
  | gaveUp {s : State ι α β} (i : ι) (a : α) : s.midway i = none →
      Step head tail s (.gaveUp i a) s
  | ended {s : State ι α β} (i : ι) (a : α) : s.midway i = some a →
      Step head tail s (.ended i) ⟨s.log ++ (tail a).getD [], update s.midway i none⟩
  | cut {s : State ι α β} (i : ι) (a : α) : s.midway i = some a →
      Step head tail s (.cut i) ⟨s.log, update s.midway i none⟩

def Alone (s : State ι α β) : Event ι α → Prop
  | .began _ _ => ∀ j, s.midway j = none
  | .gaveUp _ _ => True
  | .ended _ => True
  | .cut _ => False

/-- The records begun, in order. -/
def begun (evs : List (Event ι α)) : List α :=
  evs.filterMap fun
    | .began _ a => some a
    | _ => none

def record (head : α → List β) (tail : α → Option (List β)) (a : α) : List β :=
  head a ++ (tail a).getD []

/-- The log is the records begun: all of them whole, or all but the last, which its writer is
about to finish. -/
inductive Whole (head : α → List β) (tail : α → Option (List β)) (evs : List (Event ι α))
    (s : State ι α β) : Prop
  | idle : (∀ i, s.midway i = none) → s.log = (begun evs).flatMap (record head tail) →
      Whole head tail evs s
  | midway (i : ι) (a : α) (done : List α) : s.midway i = some a →
      (∀ j, j ≠ i → s.midway j = none) → begun evs = done ++ [a] →
      s.log = done.flatMap (record head tail) ++ head a → Whole head tail evs s

theorem begun_concat (evs : List (Event ι α)) (e : Event ι α) :
    begun (evs ++ [e]) = begun evs ++ begun [e] := filterMap_append

theorem whole_init : Whole head tail [] (State.init : State ι α β) := .idle (fun _ => rfl) rfl

variable [DecidableEq ι]

variable {evs : List (Event ι α)} {s : State ι α β}

/-- A record begins after whole ones. -/
theorem whole_began (hidle : ∀ j, s.midway j = none)
    (hlog : s.log = (begun evs).flatMap (record head tail)) (i : ι) (a : α) :
    Whole head tail (evs ++ [.began i a])
      ⟨s.log ++ head a, update s.midway i ((tail a).map fun _ => a)⟩ := by
  have hbegun : begun (evs ++ [.began i a]) = begun evs ++ [a] := begun_concat evs _
  cases ha : tail a with
  | none =>
    refine .idle (fun j => ?_) ?_
    · by_cases hj : j = i
      · rw [hj]
        exact update_self ..
      · exact (update_of_ne hj ..).trans (hidle j)
    · rw [hbegun, flatMap_append, flatMap_singleton, record, ha, Option.getD_none, append_nil, hlog]
  | some t =>
    refine .midway i a (begun evs) (update_self ..) (fun j hj => ?_) hbegun ?_
    · exact (update_of_ne hj ..).trans (hidle j)
    · rw [hlog]

theorem whole_step {e : Event ι α} {s' : State ι α β} (h : Whole head tail evs s)
    (halone : Alone s e) (hstep : Step head tail s e s') : Whole head tail (evs ++ [e]) s' := by
  cases hstep with
  | began i a =>
    cases h with
    | idle hidle hlog => exact whole_began hidle hlog i a
    | midway j b done hb =>
      rw [halone j] at hb
      cases hb
  | gaveUp i a =>
    have hbegun : begun (evs ++ [.gaveUp i a]) = begun evs :=
      (begun_concat evs _).trans (append_nil _)
    cases h with
    | idle hidle hlog => exact .idle hidle (hbegun.symm ▸ hlog)
    | midway j b done hb hothers hdone hlog =>
      exact .midway j b done hb hothers (hbegun.trans hdone) hlog
  | ended i a ha =>
    have hbegun : begun (evs ++ [.ended i]) = begun evs :=
      (begun_concat evs _).trans (append_nil _)
    cases h with
    | idle hidle _ =>
      rw [hidle i] at ha
      cases ha
    | midway j b done hb hothers hdone hlog =>
      -- the writer that ends is the one that is midway
      have hj : i = j := by
        by_contra hne
        rw [hothers i hne] at ha
        cases ha
      subst hj
      obtain rfl := Option.some.inj (ha.symm.trans hb)
      refine .idle (fun j => ?_) ?_
      · by_cases hj : j = i
        · rw [hj]
          exact update_self ..
        · exact (update_of_ne hj ..).trans (hothers j hj)
      · rw [hbegun, hdone, flatMap_append, flatMap_singleton, record, hlog, append_assoc]
  | cut i a => exact halone.elim

/-- In a run whose steps all meet `Alone` records stay whole. -/
theorem whole_run (hrun : Run (Step head tail) State.init evs s)
    (halone : Guarded (Step head tail) State.init (fun _ s e => Alone s e) evs) :
    Whole head tail evs s :=
  hrun.guarded_invariant whole_init (fun _ _ _ _ h hg hs => whole_step h hg hs) halone

end TwoPart
