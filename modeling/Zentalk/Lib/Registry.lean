import Mathlib.Data.List.Basic

/-!
# The current owner of a key

The `holder` of a key is the live owner with the newest claim (`holder_without_eq_iff`).
-/

namespace Registry

open Option List

variable {ι κ : Type*} [DecidableEq ι]

def latest (log : List (ι × κ)) (c : ι) : Option κ := (log.find? fun r => r.1 = c).map Prod.snd

/-- The live owners but `c`. -/
def without (live : ι → Bool) (c : ι) : ι → Bool := fun x => live x && x ≠ c

theorem latest_cons_self (log : List (ι × κ)) (c : ι) (a : κ) :
    latest ((c, a) :: log) c = some a := by
  simp [latest]

variable {c : ι} {log : List (ι × κ)} {a : κ} {live : ι → Bool}

theorem latest_cons_of_ne (log : List (ι × κ)) {c' : ι} (a : κ) (h : c' ≠ c) :
    latest ((c, a) :: log) c' = latest log c' := by
  simp [latest, Ne.symm h]

theorem mem_of_latest (h : latest log c = some a) : (c, a) ∈ log := by
  obtain ⟨r, hfind, rfl⟩ := map_eq_some_iff.mp h
  have hc : r.1 = c := by simpa using find?_some hfind
  exact hc ▸ mem_of_find?_eq_some hfind

variable [DecidableEq κ]

/-- The live owner with the newest claim among those whose last claim is `a`. -/
def holder (log : List (ι × κ)) (live : ι → Bool) (a : κ) : Option ι :=
  (log.find? fun r => r.2 = a ∧ live r.1 = true ∧ latest log r.1 = some a).map Prod.fst

theorem of_holder_eq_some (h : holder log live a = some c) :
    live c = true ∧ latest log c = some a := by
  obtain ⟨r, hfind, rfl⟩ := map_eq_some_iff.mp h
  have hr := find?_some hfind
  simp only [decide_eq_true_eq] at hr
  exact hr.2

theorem holder_eq_none_iff :
    holder log live a = none ↔ ∀ c, live c = true → latest log c ≠ some a := by
  rw [holder, map_eq_none_iff, find?_eq_none]
  constructor
  · intro hnone c hlive hlatest
    exact hnone (c, a) (mem_of_latest hlatest) (by simp [hlive, hlatest])
  · intro hnone r _ hr
    simp only [decide_eq_true_eq] at hr
    exact hnone r.1 hr.2.1 hr.2.2

theorem holder_congr {live' : ι → Bool} (h : ∀ c, latest log c ≠ none → live c = live' c) (a : κ) :
    holder log live a = holder log live' a := by
  have hpred : (fun r : ι × κ => decide (r.2 = a ∧ live r.1 = true ∧ latest log r.1 = some a)) =
      fun r => decide (r.2 = a ∧ live' r.1 = true ∧ latest log r.1 = some a) := by
    funext r
    refine decide_eq_decide.mpr (and_congr_right fun _ => and_congr_left fun hlatest => ?_)
    rw [h r.1 (by simp [hlatest])]
  rw [holder, holder, hpred]

theorem holder_cons_self (log : List (ι × κ)) (a : κ) (hlive : live c = true) :
    holder ((c, a) :: log) live a = some c := by
  simp [holder, hlive, latest_cons_self]

theorem holder_cons_of_ne (log : List (ι × κ)) (live : ι → Bool) (c : ι) {b : κ} (h : b ≠ a) :
    holder ((c, a) :: log) live b = holder log (without live c) b := by
  have hpred : (fun r : ι × κ => decide (r.2 = b ∧ live r.1 = true ∧
        latest ((c, a) :: log) r.1 = some b)) =
      fun r => decide (r.2 = b ∧ without live c r.1 = true ∧ latest log r.1 = some b) := by
    funext r
    refine decide_eq_decide.mpr (and_congr_right fun _ => ?_)
    by_cases hr : r.1 = c
    · simp [hr, without, latest_cons_self, Ne.symm h]
    · simp [hr, without, latest_cons_of_ne]
  rw [holder, hpred, find?_cons_of_neg (by simp [Ne.symm h]), holder]

theorem holder_without_eq_iff :
    holder log live a = holder log (without live c) a ↔ holder log live a ≠ some c := by
  constructor
  · intro heq hc
    have hlive := (of_holder_eq_some (heq ▸ hc)).1
    simp [without] at hlive
  · intro hne
    cases hholder : holder log live a with
    | none =>
      rw [holder_eq_none_iff] at hholder
      refine (holder_eq_none_iff.mpr fun x hx => hholder x ?_).symm
      simp only [without, Bool.and_eq_true] at hx
      exact hx.1
    | some x =>
      obtain ⟨r, hfind, rfl⟩ := map_eq_some_iff.mp hholder
      have hrc : r.1 ≠ c := fun heq => hne (hholder.trans (congrArg some heq))
      obtain ⟨hr, before, after, hlog, hbefore⟩ := find?_eq_some_iff_append.mp hfind
      refine (map_eq_some_iff.mpr ⟨r, ?_, rfl⟩).symm
      refine find?_eq_some_iff_append.mpr ⟨?_, before, after, hlog, ?_⟩
      · simpa [without, hrc] using hr
      · intro y hy
        have hnot := hbefore y hy
        simp only [Bool.not_eq_true', decide_eq_false_iff_not] at hnot ⊢
        refine fun hboth => hnot ⟨hboth.1, ?_, hboth.2.2⟩
        have hlive := hboth.2.1
        simp only [without, Bool.and_eq_true] at hlive
        exact hlive.1

end Registry
