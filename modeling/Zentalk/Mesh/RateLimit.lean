import Zentalk.Lib.Bytes
import Mathlib.Logic.Function.Basic

/-!
# The rate limiter of the API

`Allow` and the passes of `cleanup`, for calls of any addresses in the order of their times.

Results:
1. `rate_limit_iff`: at most `2 * limit - 1` calls of an address are allowed in a minute, and never
   more than the limit just when its calls are `Spaced` around the resets.
2. `cleanup_invisible`: the passes change no result.
-/

namespace Zentalk.Mesh

open Wire
open List hiding count after

structure RequestCounter where
  count : ℤ
  resetTime : ℤ

/-- `RateLimiter`. Times are in nanoseconds. -/
structure RateLimiter where
  requests : Bytes → Option RequestCounter
  limit : ℤ
  window : ℤ

def minute : ℤ := 60 * 10 ^ 9

def newRateLimiter (requestsPerMinute : ℤ) : RateLimiter :=
  ⟨fun _ => none, requestsPerMinute, minute⟩

/-- A call of `Allow`, or a pass of `cleanup`, each at one time. -/
inductive LimiterOp
  | allow (ip : Bytes) (now : ℤ)
  | cleanup (now : ℤ)
deriving DecidableEq

namespace LimiterOp

def now : LimiterOp → ℤ
  | allow _ now => now
  | cleanup now => now

def isAllow : LimiterOp → Bool
  | allow _ _ => true
  | cleanup _ => false

end LimiterOp

def InOrder (ops : List LimiterOp) : Prop := ops.Pairwise fun op op' => op.now ≤ op'.now

namespace RateLimiter

/-- What `Allow` makes of the counter of an address, and what it returns. -/
def count (rl : RateLimiter) (now : ℤ) : Option RequestCounter → RequestCounter × Bool
  | none => (⟨1, now + rl.window⟩, true)
  | some counter =>
    if counter.resetTime < now then (⟨1, now + rl.window⟩, true)
    else if counter.count ≥ rl.limit then (counter, false)
    else (⟨counter.count + 1, counter.resetTime⟩, true)

/-- The limiter after an operation, and what `Allow` returns. -/
def apply (rl : RateLimiter) : LimiterOp → RateLimiter × Bool
  | .allow ip now =>
    let (counter, allowed) := rl.count now (rl.requests ip)
    ({ rl with requests := Function.update rl.requests ip (some counter) }, allowed)
  | .cleanup now =>
    ({ rl with
        requests := fun ip => (rl.requests ip).filter fun counter => now ≤ counter.resetTime },
      false)

/-- What the calls of `Allow` return. -/
def results (rl : RateLimiter) : List LimiterOp → List Bool
  | [] => []
  | op :: ops =>
    if op.isAllow then (rl.apply op).2 :: (rl.apply op).1.results ops
    else (rl.apply op).1.results ops

def after (rl : RateLimiter) (ops : List LimiterOp) : RateLimiter :=
  ops.foldl (fun rl op => (rl.apply op).1) rl

/-- When the calls of an address are made that are allowed. -/
def allowedTimes (rl : RateLimiter) (ip : Bytes) : List LimiterOp → List ℤ
  | [] => []
  | op :: ops =>
    (if op = .allow ip op.now ∧ (rl.apply op).2 = true then [op.now] else []) ++
      (rl.apply op).1.allowedTimes ip ops

end RateLimiter

/-- Consecutive operations within one minute. -/
def WithinMinute (ops : List LimiterOp) : Prop :=
  ∃ t, ∀ op ∈ ops, t ≤ op.now ∧ op.now ≤ t + minute

/-! ## Windows -/

/-- The times at which an address calls. -/
def callTimes (ip : Bytes) (ops : List LimiterOp) : List ℤ :=
  ops.filterMap fun op => if op = .allow ip op.now then some op.now else none

/-- The calls of the latest window, and of the one before. -/
structure Windows where
  previous : List ℤ
  current : List ℤ

/-- A call more than a minute after the first one of the window is a reset: it is the first one of
the next window. -/
def Windows.add (w : Windows) (now : ℤ) : Windows :=
  if ∃ first ∈ w.current.head?, now ≤ first + minute then ⟨w.previous, w.current ++ [now]⟩
  else ⟨w.current, [now]⟩

def windows (times : List ℤ) : Windows := times.foldl Windows.add ⟨[], []⟩

/-- How many of the times are not before `t`. -/
def since (t : ℤ) (times : List ℤ) : ℕ := times.countP fun a => decide (t ≤ a)

/-- Of each window the first `limit` calls count. The latest one is made at `now`: if it counts,
those of its window, and those of the window before in the last minute, are not more than the
limit. -/
def Windows.Spaced (w : Windows) (limit : ℕ) (now : ℤ) : Prop :=
  w.current.length ≤ limit →
    since (now - minute) (w.previous.take limit) + w.current.length ≤ limit

def Spaced (limit : ℕ) (times : List ℤ) : Prop :=
  ∀ (i : ℕ) (_ : i < times.length), (windows (times.take (i + 1))).Spaced limit times[i]

section

open RateLimiter

variable {rl rl' : RateLimiter} {ip : Bytes} {ips : Bytes → Prop} {t now : ℤ} {op : LimiterOp}
  {ops pre mid : List LimiterOp} {limit : ℕ} {times : List ℤ}

/-! ## One operation -/

/-- The window of an address, if it has one, ended before `now`. -/
def Over (rl : RateLimiter) (ip : Bytes) (now : ℤ) : Prop :=
  ∀ counter, rl.requests ip = some counter → counter.resetTime < now

theorem count_over (h : Over rl ip now) :
    rl.count now (rl.requests ip) = (⟨1, now + rl.window⟩, true) := by
  unfold count
  split
  · rfl
  · next counter hcounter => rw [if_pos (h counter hcounter)]

theorem exists_of_not_over (h : ¬ Over rl ip now) :
    ∃ counter, rl.requests ip = some counter ∧ now ≤ counter.resetTime := by
  simpa [Over] using h

theorem requests_cleanup {counter : RequestCounter} :
    (rl.apply (.cleanup now)).1.requests ip = some counter ↔
      rl.requests ip = some counter ∧ now ≤ counter.resetTime := by
  simp [apply, Option.filter_eq_some_iff]

theorem requests_allow (rl : RateLimiter) (ip : Bytes) (now : ℤ) :
    (rl.apply (.allow ip now)).1.requests ip = some (rl.count now (rl.requests ip)).1 :=
  Function.update_self _ _ _

theorem requests_allow_of_ne {ip' : Bytes} (h : ip ≠ ip') :
    (rl.apply (.allow ip' now)).1.requests ip = rl.requests ip := Function.update_of_ne h _ _

/-! ## The other operations -/

/-- The limiters agree on an address in `ips`, or at all times to come both have no window for
it. -/
def Alike (ips : Bytes → Prop) (rest : List LimiterOp) (rl rl' : RateLimiter) : Prop :=
  rl.limit = rl'.limit ∧ rl.window = rl'.window ∧ ∀ ip, ips ip →
    rl.requests ip = rl'.requests ip ∨ ∀ op ∈ rest, Over rl ip op.now ∧ Over rl' ip op.now

theorem alike_allow (h : Alike ips (.allow ip now :: ops) rl rl') (hip : ips ip) :
    (rl.apply (.allow ip now)).2 = (rl'.apply (.allow ip now)).2 ∧
      Alike ips ops (rl.apply (.allow ip now)).1 (rl'.apply (.allow ip now)).1 := by
  obtain ⟨hlimit, hwindow, hrequests⟩ := h
  have hcount : rl.count now (rl.requests ip) = rl'.count now (rl'.requests ip) := by
    rcases hrequests ip hip with hsame | hover
    · unfold count
      rw [hsame, hlimit, hwindow]
    · have hboth : Over rl ip now ∧ Over rl' ip now := hover _ mem_cons_self
      rw [count_over hboth.1, count_over hboth.2, hwindow]
  refine ⟨show (rl.count now _).2 = (rl'.count now _).2 by rw [hcount], hlimit, hwindow,
    fun ip' hip' => ?_⟩
  by_cases heq : ip' = ip
  · rw [heq, requests_allow, requests_allow, hcount]
    exact .inl rfl
  · simp only [Over, requests_allow_of_ne heq]
    exact (hrequests ip' hip').imp_right fun hover op hop => hover op (mem_cons_of_mem _ hop)

/-- What is no call of an address in `ips` does not matter for these. -/
theorem alike_other (h : Alike ips (op :: ops) rl rl') (hle : ∀ op' ∈ ops, op.now ≤ op'.now)
    (hother : ∀ ip, ips ip → op ≠ .allow ip op.now) : Alike ips ops (rl.apply op).1 rl' := by
  obtain ⟨hlimit, hwindow, hrequests⟩ := h
  cases op with
  | allow ip' now =>
    refine ⟨hlimit, hwindow, fun ip hip => ?_⟩
    have hne : ip ≠ ip' := fun heq => hother ip hip (heq ▸ rfl)
    simp only [Over, requests_allow_of_ne hne]
    exact (hrequests ip hip).imp_right fun hover op hop => hover op (mem_cons_of_mem _ hop)
  | cleanup now =>
    refine ⟨hlimit, hwindow, fun ip hip => ?_⟩
    by_cases hover : Over rl ip now
    · have hover' : Over rl' ip now := by
        rcases hrequests ip hip with hsame | hboth
        · rwa [Over, ← hsame]
        · exact (hboth _ mem_cons_self).2
      refine .inr fun op hop => ⟨fun counter hcounter => ?_, fun counter hcounter => ?_⟩
      · exact (hover counter (requests_cleanup.mp hcounter).1).trans_le (hle op hop)
      · exact (hover' counter hcounter).trans_le (hle op hop)
    · obtain ⟨counter, hcounter⟩ := exists_of_not_over hover
      rcases hrequests ip hip with hsame | hboth
      · exact .inl ((requests_cleanup.mpr hcounter).trans (hcounter.1.symm.trans hsame))
      · exact absurd (hboth _ mem_cons_self).1 hover

theorem results_filter (hops : InOrder ops) (h : Alike (fun _ => True) ops rl rl') :
    rl.results ops = rl'.results (ops.filter LimiterOp.isAllow) := by
  induction ops generalizing rl rl' with
  | nil => rfl
  | cons op ops ih =>
    obtain ⟨hnext, hrest⟩ := pairwise_cons.mp hops
    cases op with
    | allow ip now =>
      obtain ⟨hresult, halike⟩ := alike_allow h trivial
      show (rl.apply _).2 :: (rl.apply _).1.results ops = (rl'.apply _).2 :: _
      rw [hresult, ih hrest halike]
    | cleanup now => exact ih hrest (alike_other h hnext fun _ _ => LimiterOp.noConfusion)

theorem callTimes_cons (ip : Bytes) (op : LimiterOp) (ops : List LimiterOp) :
    callTimes ip (op :: ops) =
      (if op = .allow ip op.now then [op.now] else []) ++ callTimes ip ops := by
  rw [callTimes, filterMap_cons]
  by_cases hcall : op = .allow ip op.now
  · rw [if_pos hcall, if_pos hcall]
    rfl
  · rw [if_neg hcall, if_neg hcall]
    rfl

theorem callTimes_append (ip : Bytes) (ops more : List LimiterOp) :
    callTimes ip (ops ++ more) = callTimes ip ops ++ callTimes ip more := filterMap_append

/-- What is allowed of an address depends on its own calls only. -/
theorem allowedTimes_calls (hops : InOrder ops) (h : Alike (· = ip) ops rl rl') :
    rl.allowedTimes ip ops = rl'.allowedTimes ip ((callTimes ip ops).map (.allow ip)) := by
  induction ops generalizing rl rl' with
  | nil => rfl
  | cons op ops ih =>
    obtain ⟨hnext, hrest⟩ := pairwise_cons.mp hops
    rw [allowedTimes, callTimes_cons]
    by_cases hcall : op = .allow ip op.now
    · rw [if_pos hcall]
      generalize op.now = now at *
      subst hcall
      obtain ⟨hresult, halike⟩ := alike_allow h rfl
      rw [hresult, ih hrest halike]
      rfl
    · rw [if_neg hcall, if_neg fun hop => hcall hop.1, nil_append, nil_append]
      refine ih hrest (alike_other h hnext ?_)
      rintro _ rfl
      exact hcall

/-! ## The calls of one address -/

/-- Which of the calls of an address are allowed. -/
def served (limit : ℕ) (ip : Bytes) (times : List ℤ) : List ℤ :=
  (newRateLimiter limit).allowedTimes ip (times.map (.allow ip))

theorem allowedTimes_new (ip : Bytes) (hops : InOrder ops) :
    (newRateLimiter limit).allowedTimes ip ops = served limit ip (callTimes ip ops) :=
  allowedTimes_calls hops ⟨rfl, rfl, fun _ _ => .inl rfl⟩

theorem allowedTimes_append (rl : RateLimiter) (ip : Bytes) (pre ops : List LimiterOp) :
    rl.allowedTimes ip (pre ++ ops) =
      rl.allowedTimes ip pre ++ (rl.after pre).allowedTimes ip ops := by
  induction pre generalizing rl with
  | nil => rfl
  | cons op pre ih =>
    rw [cons_append, allowedTimes, allowedTimes, ih, append_assoc]
    rfl

theorem windows_snoc (times : List ℤ) (now : ℤ) :
    windows (times ++ [now]) = (windows times).add now := foldl_append

/-- The counter of the window. -/
def Windows.counter (w : Windows) (limit : ℕ) : Option RequestCounter :=
  w.current.head?.map fun first => ⟨min limit w.current.length, first + minute⟩

theorem count_counter (hlimit : 1 ≤ limit) (hframe : rl.limit = limit ∧ rl.window = minute)
    (w : Windows) (now : ℤ) :
    some (rl.count now (w.counter limit)).1 = (w.add now).counter limit ∧
      ((rl.count now (w.counter limit)).2 = true ↔ (w.add now).current.length ≤ limit) := by
  rcases hlist : w.current with _ | ⟨first, rest⟩
  · simp [Windows.counter, Windows.add, hlist, RateLimiter.count, hframe, hlimit]
  · simp only [Windows.counter, Windows.add, hlist, RateLimiter.count, hframe, head?_cons,
      Option.map_some, Option.mem_def, Option.some_inj, exists_eq_left']
    by_cases hlate : first + minute < now
    · simp [if_pos hlate, if_neg (not_le.mpr hlate), hlimit]
    · rw [if_neg hlate, if_pos (not_lt.mp hlate)]
      split
      · next hfull => simp at hfull ⊢; omega
      · next hroom => simp at hroom ⊢; omega

theorem after_calls (ip : Bytes) (hlimit : 1 ≤ limit) (times : List ℤ) :
    let rl := (newRateLimiter limit).after (times.map (.allow ip))
    (rl.limit = limit ∧ rl.window = minute) ∧ rl.requests ip = (windows times).counter limit := by
  induction times using reverseRecOn with
  | nil => exact ⟨⟨rfl, rfl⟩, rfl⟩
  | append_singleton times now ih =>
    obtain ⟨hframe, hrequests⟩ := ih
    rw [map_append, after, foldl_append, windows_snoc, ← (count_counter hlimit hframe _ _).1,
      ← hrequests]
    exact ⟨hframe, requests_allow _ ip now⟩

/-- A call is allowed if it is among the first `limit` of its window. -/
theorem served_snoc (ip : Bytes) (hlimit : 1 ≤ limit) (times : List ℤ) (now : ℤ) :
    served limit ip (times ++ [now]) = served limit ip times ++
      if (windows (times ++ [now])).current.length ≤ limit then [now] else [] := by
  obtain ⟨hframe, hrequests⟩ := after_calls ip hlimit times
  rw [windows_snoc]
  simp only [← (count_counter hlimit hframe _ _).2, ← hrequests]
  rw [served, map_append, allowedTimes_append, ← served, map_singleton, allowedTimes, allowedTimes,
    append_nil]
  simp only [LimiterOp.now, true_and]
  rfl

/-! ## Windows in a minute -/

theorem since_append (t : ℤ) (l l' : List ℤ) : since t (l ++ l') = since t l + since t l' :=
  countP_append

theorem since_eq_zero {l : List ℤ} (h : ∀ a ∈ l, a < t) : since t l = 0 := by
  refine countP_eq_zero.mpr fun a ha => ?_
  simpa using h a ha

theorem since_eq_length {l : List ℤ} (h : ∀ a ∈ l, t ≤ a) : since t l = l.length :=
  countP_eq_length.mpr fun a ha => decide_eq_true (h a ha)

theorem since_take_le (t : ℤ) (l : List ℤ) (n : ℕ) : since t (l.take n) ≤ n :=
  countP_le_length.trans (length_take_le _ _)

/-- The calls of a window lie within a minute, and those of the window before are earlier. What is
allowed since that began are the first `limit` calls of the two. -/
structure Tracks (limit : ℕ) (times allowed : List ℤ) (w : Windows) : Prop where
  called : w.current ⊆ times
  within : ∀ first ∈ w.current.head?, ∀ t ∈ w.current, first ≤ t ∧ t ≤ first + minute
  earlier : ∀ a ∈ w.previous, ∃ first ∈ w.current.head?, a < first
  start : ∀ a ∈ w.previous.head?, ∀ first ∈ w.current.head?, a + minute < first
  recent : ∀ t, (∀ first ∈ w.previous.head?, first ≤ t) →
    since t allowed = since t (w.previous.take limit) + since t (w.current.take limit)

theorem Tracks.add {allowed : List ℤ} {w : Windows} (h : Tracks limit times allowed w)
    (hlimit : 1 ≤ limit) (hle : ∀ a ∈ times, a ≤ now) :
    Tracks limit (times ++ [now])
      (allowed ++ if (w.add now).current.length ≤ limit then [now] else []) (w.add now) := by
  unfold Windows.add
  split
  · next hopen =>
    obtain ⟨first, hfirst, hopen⟩ := hopen
    have hhead {a : ℤ} : a ∈ (w.current ++ [now]).head? ↔ a = first := by
      rw [head?_append, Option.mem_def.mp hfirst]
      exact Option.some_inj.trans eq_comm
    refine ⟨append_subset.mpr ⟨subset_append_of_subset_left _ h.called, by simp⟩, fun a ha => ?_,
      fun a ha => ⟨first, hhead.mpr rfl, ?_⟩, fun a ha b hb => ?_, fun t ht => ?_⟩
    · obtain rfl := hhead.mp ha
      refine forall_mem_append.mpr ⟨h.within a hfirst, ?_⟩
      simpa using ⟨hle a (h.called (mem_of_mem_head? hfirst)), hopen⟩
    · obtain ⟨first', hfirst', hlt⟩ := h.earlier a ha
      rwa [Option.mem_unique hfirst hfirst']
    · rw [hhead.mp hb]
      exact h.start a ha first hfirst
    · rw [since_append, h.recent t ht, take_append, length_append, length_singleton]
      split
      · next hroom =>
        rw [take_of_length_le (l := [now]) (by simp; omega), since_append, Nat.add_assoc]
      · next hfull => simp [Nat.sub_eq_zero_of_le (Nat.le_of_lt_succ (not_le.mp hfull)), since]
  · next hover =>
    have hlate : ∀ first ∈ w.current.head?, first + minute < now := by simpa using hover
    refine ⟨by simp, by simp [minute], fun a ha => ?_, by simpa using hlate, fun t ht => ?_⟩
    · have hfirst := head_mem_head? (ne_nil_of_mem ha)
      exact ⟨now, rfl, (h.within _ hfirst a ha).2.trans_lt (hlate _ hfirst)⟩
    · have hbefore a (ha : a ∈ w.previous) : a < t := by
        obtain ⟨first, hfirst, hlt⟩ := h.earlier a ha
        exact hlt.trans_le (ht first hfirst)
      have hrecent := h.recent t fun a ha => (hbefore a (mem_of_mem_head? ha)).le
      rw [since_eq_zero fun a ha => hbefore a (mem_of_mem_take ha), Nat.zero_add] at hrecent
      rw [since_append, hrecent, length_singleton, if_pos hlimit,
        take_of_length_le (l := [now]) hlimit]

theorem tracks_served (ip : Bytes) (hlimit : 1 ≤ limit) (htimes : times.Pairwise (· ≤ ·)) :
    Tracks limit times (served limit ip times) (windows times) := by
  induction times using reverseRecOn with
  | nil => refine ⟨?_, ?_, ?_, ?_, ?_⟩ <;> simp [windows, served, allowedTimes, since]
  | append_singleton times now ih =>
    obtain ⟨hbefore, -, hle⟩ := pairwise_append.mp htimes
    rw [served_snoc ip hlimit, windows_snoc]
    exact (ih hbefore).add hlimit fun a ha => hle a ha now mem_cons_self

/-! ## Runs in a minute -/

theorem callTimes_allow (ip : Bytes) (ops : List LimiterOp) (now : ℤ) :
    callTimes ip (ops ++ [.allow ip now]) = callTimes ip ops ++ [now] := by
  rw [callTimes_append, callTimes_cons, LimiterOp.now, if_pos rfl]
  rfl

theorem mem_callTimes (h : t ∈ callTimes ip ops) : ∃ op ∈ ops, op.now = t := by
  obtain ⟨op, hop, hnow⟩ := mem_filterMap.mp h
  split at hnow
  · exact ⟨op, hop, Option.some.inj hnow⟩
  · cases hnow

theorem mem_allowedTimes (h : t ∈ rl.allowedTimes ip ops) : ∃ op ∈ ops, op.now = t := by
  induction ops generalizing rl with
  | nil => cases h
  | cons op ops ih =>
    rcases mem_append.mp h with hnow | hlater
    · split at hnow
      · exact ⟨op, mem_cons_self, (mem_singleton.mp hnow).symm⟩
      · cases hnow
    · obtain ⟨op', hmem, hop'⟩ := ih hlater
      exact ⟨op', mem_cons_of_mem _ hmem, hop'⟩

theorem tracks_run (ip : Bytes) (hlimit : 1 ≤ limit) (hops : InOrder ops) :
    Tracks limit (callTimes ip ops) ((newRateLimiter limit).allowedTimes ip ops)
      (windows (callTimes ip ops)) := by
  rw [allowedTimes_new ip hops]
  refine tracks_served ip hlimit (Pairwise.filterMap _ (fun op op' hle a ha a' ha' => ?_) hops)
  split at ha <;> split at ha' <;> cases ha <;> cases ha'
  exact hle

theorem since_after (hmid : ∀ op ∈ mid, t ≤ op.now) :
    since t (rl.allowedTimes ip (pre ++ mid)) =
      since t (rl.allowedTimes ip pre) + ((rl.after pre).allowedTimes ip mid).length := by
  rw [allowedTimes_append, since_append, since_eq_length (l := allowedTimes _ ip mid)]
  intro a ha
  obtain ⟨op, hop, rfl⟩ := mem_allowedTimes ha
  exact hmid op hop

theorem allowed_le (ip : Bytes) (hlimit : 1 ≤ limit) (hops : InOrder (pre ++ mid))
    (hminute : WithinMinute mid) :
    (((newRateLimiter limit).after pre).allowedTimes ip mid).length ≤ 2 * limit - 1 := by
  obtain ⟨t, hminute⟩ := hminute
  rcases eq_or_ne mid [] with rfl | hne
  · exact Nat.zero_le _
  have htracks := tracks_run ip hlimit hops
  have hsum := htracks.recent t
  rw [since_after fun op hop => (hminute op hop).1] at hsum
  generalize windows (callTimes ip (pre ++ mid)) = w at *
  have hbefore : ∀ a ∈ w.previous.head?, a < t := by
    intro a ha
    obtain ⟨first, hfirst, -⟩ := htracks.earlier a (mem_of_mem_head? ha)
    have hstart := htracks.start a ha first hfirst
    have hend : first ≤ t + minute := by
      obtain ⟨op, hop, rfl⟩ := mem_callTimes (htracks.called (mem_of_mem_head? hfirst))
      rcases mem_append.mp hop with hpre | hin
      · obtain ⟨op', hop'⟩ := exists_mem_of_ne_nil _ hne
        exact ((pairwise_append.mp hops).2.2 op hpre op' hop').trans (hminute op' hop').2
      · exact (hminute op hin).2
    omega
  have hcurrent := since_take_le t w.current limit
  have hprevious : since t (w.previous.take limit) ≤ limit - 1 := by
    obtain ⟨n, rfl⟩ := Nat.exists_eq_add_of_le' hlimit
    cases hlist : w.previous with
    | nil => exact Nat.zero_le _
    | cons first later =>
      -- the first call of the window before is not in the minute
      have hold : first < t := hbefore first (by rw [hlist]; rfl)
      rw [take_succ_cons, since, countP_cons_of_neg (by simpa using hold)]
      exact since_take_le t later n
  have := hsum fun a ha => (hbefore a ha).le
  omega

/-- At a call that counts, what was allowed in the minute up to it. -/
theorem since_call (hlimit : 1 ≤ limit) (hops : InOrder (ops ++ [.allow ip now])) {w : Windows}
    (hw : windows (callTimes ip ops ++ [now]) = w) (hcount : w.current.length ≤ limit) :
    since (now - minute) ((newRateLimiter limit).allowedTimes ip (ops ++ [.allow ip now])) =
      since (now - minute) (w.previous.take limit) + w.current.length := by
  have htracks := tracks_run ip hlimit hops
  rw [callTimes_allow, hw] at htracks
  have hnow : now ∈ w.current := by
    rw [← hw, windows_snoc, Windows.add]
    split
    · exact mem_append_right _ mem_cons_self
    · exact mem_cons_self
  rw [htracks.recent, take_of_length_le hcount, since_eq_length (l := w.current)]
  · intro a ha
    have hfirst := head_mem_head? (ne_nil_of_mem ha)
    have hstart := (htracks.within _ hfirst a ha).1
    have hend := (htracks.within _ hfirst _ hnow).2
    omega
  · intro a ha
    have hfirst := head_mem_head? (ne_nil_of_mem hnow)
    have hstart := htracks.start a ha _ hfirst
    have hend := (htracks.within _ hfirst _ hnow).1
    omega

theorem length_of_allowed (hlimit : 1 ≤ limit) (hops : InOrder (ops ++ [.allow ip now]))
    (h : (((newRateLimiter limit).after ops).apply (.allow ip now)).2 = true) :
    (windows (callTimes ip ops ++ [now])).current.length ≤ limit := by
  have hserved : (newRateLimiter limit).allowedTimes ip _ = _ := allowedTimes_new ip hops
  rw [callTimes_allow, served_snoc ip hlimit, allowedTimes_append,
    allowedTimes_new ip (pairwise_append.mp hops).1, append_cancel_left_eq, allowedTimes,
    if_pos ⟨rfl, h⟩] at hserved
  by_contra hfull
  rw [if_neg hfull] at hserved
  cases hserved

/-- Operations in order, cut at a time. -/
theorem exists_cut (h : InOrder ops) (t : ℤ) : ∃ old recent, ops = old ++ recent ∧
    (∀ op ∈ old, op.now < t) ∧ ∀ op ∈ recent, t ≤ op.now := by
  induction ops with
  | nil => exact ⟨[], [], rfl, forall_mem_nil _, forall_mem_nil _⟩
  | cons op ops ih =>
    obtain ⟨hfirst, hrest⟩ := pairwise_cons.mp h
    by_cases hlt : op.now < t
    · obtain ⟨old, recent, rfl, hold, hrecent⟩ := ih hrest
      exact ⟨op :: old, recent, rfl, forall_mem_cons.mpr ⟨hlt, hold⟩, hrecent⟩
    · have hle := not_lt.mp hlt
      exact ⟨[], op :: ops, rfl, forall_mem_nil _,
        forall_mem_cons.mpr ⟨hle, fun op' hop' => hle.trans (hfirst op' hop')⟩⟩

theorem spaced_iff : Spaced limit times ↔ ∀ before now later, times = before ++ now :: later →
    (windows (before ++ [now])).Spaced limit now := by
  constructor
  · rintro h before now later rfl
    have hlast := h before.length (by simp)
    rw [take_succ_eq_append_getElem (by simp)] at hlast
    simpa using hlast
  · intro h i hi
    have hlast := h (times.take i) times[i] (times.drop (i + 1)) (by simp)
    rwa [← take_succ_eq_append_getElem] at hlast

theorem exists_of_callTimes {before later : List ℤ}
    (h : callTimes ip ops = before ++ now :: later) :
    ∃ pre post, ops = pre ++ .allow ip now :: post ∧ callTimes ip pre = before := by
  obtain ⟨pre, post, rfl, rfl, hrest⟩ := filterMap_eq_append_iff.mp h
  obtain ⟨quiet, op, post, rfl, hnone, hnow, -⟩ := filterMap_eq_cons_iff.mp hrest
  split at hnow
  · next hop =>
    obtain rfl := Option.some.inj hnow
    refine ⟨pre ++ quiet, post, by rw [← hop, append_assoc], ?_⟩
    rw [callTimes, filterMap_append, filterMap_eq_nil_iff.mpr hnone, append_nil]
  · cases hnow

/-- If no minute has more than the limit, the calls are spaced. -/
theorem spaced_of_allowed_le (hlimit : 1 ≤ limit) (hops : InOrder ops)
    (h : ∀ pre mid post, ops = pre ++ mid ++ post → WithinMinute mid →
      (((newRateLimiter limit).after pre).allowedTimes ip mid).length ≤ limit) :
    Spaced limit (callTimes ip ops) := by
  refine spaced_iff.mpr fun before now later htimes hcount => ?_
  obtain ⟨pre, post, rfl, rfl⟩ := exists_of_callTimes htimes
  rw [append_cons] at hops
  have hall : InOrder (pre ++ [.allow ip now]) := (pairwise_append.mp hops).1
  have hsum := since_call hlimit hall rfl hcount
  obtain ⟨hbefore, -, hle⟩ := pairwise_append.mp hall
  -- the minute up to the call
  obtain ⟨old, recent, rfl, hold, hrecent⟩ := exists_cut hbefore (now - minute)
  have hstart : ∀ op ∈ recent ++ [.allow ip now], now - minute ≤ op.now :=
    forall_mem_append.mpr ⟨hrecent, by simp [LimiterOp.now, minute]⟩
  have hend : ∀ op ∈ recent ++ [.allow ip now], op.now ≤ now :=
    forall_mem_append.mpr ⟨fun op hop => hle op (mem_append_right _ hop) _ mem_cons_self,
      by simp [LimiterOp.now]⟩
  rw [append_assoc, since_after hstart, since_eq_zero, Nat.zero_add] at hsum
  · refine hsum.ge.trans (h old _ post (by simp) ⟨now - minute, fun op hop => ⟨hstart op hop, ?_⟩⟩)
    rw [sub_add_cancel]
    exact hend op hop
  · intro a ha
    obtain ⟨op, hop, rfl⟩ := mem_allowedTimes ha
    exact hold op hop

/-- If the calls are spaced, no minute has more than the limit: what is allowed in it is allowed in
the minute up to the last such call. -/
theorem allowed_le_of_spaced {post : List LimiterOp} (hlimit : 1 ≤ limit)
    (hops : InOrder (pre ++ mid ++ post)) (hminute : WithinMinute mid)
    (h : Spaced limit (callTimes ip (pre ++ mid ++ post))) :
    (((newRateLimiter limit).after pre).allowedTimes ip mid).length ≤ limit := by
  obtain ⟨t, hminute⟩ := hminute
  induction mid using reverseRecOn generalizing post with
  | nil => exact Nat.zero_le _
  | append_singleton mid op ih =>
    by_cases hop : op = .allow ip op.now ∧
        ((((newRateLimiter limit).after pre).after mid).apply op).2 = true
    · obtain ⟨hcall, hyes⟩ := hop
      have hend := (hminute op (mem_append_right _ mem_cons_self)).2
      generalize op.now = now at hcall hend
      subst hcall
      have hall := (pairwise_append.mp hops).1
      rw [← append_assoc] at hall
      have hcount := length_of_allowed hlimit hall (by rwa [after, foldl_append])
      have hsum := since_call hlimit hall rfl hcount
      rw [append_assoc, since_after fun op hop => ?_] at hsum
      · have hspaced := spaced_iff.mp h _ now (callTimes ip post) (by
          rw [← append_assoc, callTimes_append, callTimes_allow, ← append_cons]) hcount
        omega
      · have hstart := (hminute op hop).1
        omega
    · rw [← append_assoc, ← append_cons] at hops h
      rw [allowedTimes_append, allowedTimes, if_neg hop]
      exact (congrArg length (append_nil _)).trans_le (ih hops h (forall_mem_append.mp hminute).1)

end

open RateLimiter

/-- Of the calls of an address within a minute at most `2 * limit - 1` are allowed. There are never
more than the limit just when its calls are spaced around the resets. -/
theorem rate_limit_iff {limit : ℕ} (hlimit : 1 ≤ limit) {ops : List LimiterOp} (hops : InOrder ops)
    (ip : Bytes) :
    (∀ pre mid post, ops = pre ++ mid ++ post → WithinMinute mid →
      (((newRateLimiter limit).after pre).allowedTimes ip mid).length ≤ 2 * limit - 1) ∧
    ((∀ pre mid post, ops = pre ++ mid ++ post → WithinMinute mid →
      (((newRateLimiter limit).after pre).allowedTimes ip mid).length ≤ limit) ↔
      Spaced limit (callTimes ip ops)) := by
  refine ⟨?_, spaced_of_allowed_le hlimit hops, ?_⟩
  · rintro pre mid post rfl
    exact allowed_le ip hlimit (pairwise_append.mp hops).1
  · rintro h pre mid post rfl hminute
    exact allowed_le_of_spaced hlimit hops hminute h

/-- Two calls at the beginning of each of two windows. -/
theorem rate_limit_spaced :
    let ops : List LimiterOp :=
      [.allow [] 0, .allow [] 1, .allow [] (minute + 2), .allow [] (minute + 3)]
    InOrder ops ∧ Spaced 2 (callTimes [] ops) ∧
      ∀ pre mid post, ops = pre ++ mid ++ post → WithinMinute mid →
        (((newRateLimiter (2 : ℕ)).after pre).allowedTimes [] mid).length ≤ 2 := by
  intro ops
  have horder : InOrder ops := by unfold InOrder; decide
  have hspaced : Spaced 2 (callTimes [] ops) := by unfold Spaced Windows.Spaced; decide
  exact ⟨horder, hspaced, (rate_limit_iff (by decide) horder []).2.mpr hspaced⟩

/-- With a limit of two, a call in the last moment of a window and two in the next one are allowed:
three in a minute. -/
theorem rate_limit_exceeded :
    let burst : List LimiterOp :=
      [.allow [] minute, .allow [] (minute + 1), .allow [] (minute + 1)]
    InOrder ([.allow [] 0] ++ burst) ∧ WithinMinute burst ∧
      (((newRateLimiter (2 : ℕ)).after [.allow [] 0]).allowedTimes [] burst).length = 3 := by
  intro burst
  exact ⟨by unfold InOrder; decide, ⟨minute, by decide⟩, rfl⟩

/-- Passes of `cleanup` do not change what any call of `Allow` returns. -/
theorem cleanup_invisible (limit : ℤ) {ops : List LimiterOp} (hops : InOrder ops) :
    (newRateLimiter limit).results ops =
      (newRateLimiter limit).results (ops.filter LimiterOp.isAllow) :=
  results_filter hops ⟨rfl, rfl, fun _ _ => .inl rfl⟩

/-- A pass between two calls, after the window of the first. -/
theorem cleanup_invisible_pass :
    let ops : List LimiterOp := [.allow [] 0, .cleanup (minute + 1), .allow [] (minute + 2)]
    InOrder ops ∧ (newRateLimiter 1).results ops = [true, true] ∧
      (newRateLimiter 1).results (ops.filter LimiterOp.isAllow) = [true, true] := by
  intro ops
  have horder : InOrder ops := by unfold InOrder; decide
  have hresults : (newRateLimiter 1).results ops = [true, true] := rfl
  exact ⟨horder, hresults, (cleanup_invisible 1 horder).symm.trans hresults⟩

end Zentalk.Mesh
