import Zentalk.Lib.Bytes

/-!
# Reading fields from a slice

`Reads r R` says what a reader returns and composes along the code (`Reads.bind`).
-/

namespace Wire

open List ByteArr UInt32 Except Nat

/-- A slice: its bytes, and those behind them in the same array up to the capacity. -/
structure Slice where
  bytes : Bytes
  spare : Bytes

/-- A slice that fills its array. -/
def Slice.full (b : Bytes) : Slice := ⟨b, []⟩

/-- How a decoder ends without a value. -/
inductive Fault
  | panic
  | error (e : String)
deriving DecidableEq

def Reader (α : Type) : Type := Slice → ℕ → Except Fault (α × ℕ)

namespace Reader

variable {α β : Type}

instance : Monad Reader where
  pure a := fun _ offset => .ok (a, offset)
  bind r f := fun buf offset =>
    match r buf offset with
    | .error e => .error e
    | .ok (a, offset') => f a buf offset'

def run (r : Reader α) (buf : Slice) : Except Fault α := (r buf 0).map Prod.fst

def fail (e : String) : Reader α := fun _ _ => .error (.error e)

/-- `buf[offset : offset + n]`. -/
def sub (n : ℕ) : Reader Bytes := fun buf offset =>
  if offset + n ≤ buf.bytes.length + buf.spare.length then
    .ok (slice (buf.bytes ++ buf.spare) offset n, offset + n)
  else .error .panic

/-- The first `n` bytes of `buf[offset:]`. -/
def next (n : ℕ) : Reader Bytes := fun buf offset =>
  if offset + n ≤ buf.bytes.length then .ok (slice buf.bytes offset n, offset + n)
  else .error .panic

/-- `copy(a[:], buf[offset : offset + n])`. -/
def array (n : ℕ) : Reader (ByteArr n) := do
  return ofSlice n (← sub n)

/-- `buf[offset]`. -/
def byte : Reader UInt8 := do
  return (← next 1).headD 0

/-- `binary.BigEndian.Uint16(buf[offset:])`. -/
def uint16 : Reader UInt16 := do
  return UInt16.ofNat (getUint (← next 2))

/-- `binary.BigEndian.Uint32(buf[offset:])`. -/
def uint32 : Reader UInt32 := do
  return UInt32.ofNat (getUint (← next 4))

/-- `binary.BigEndian.Uint64(buf[offset:])`. -/
def uint64 : Reader UInt64 := do
  return UInt64.ofNat (getUint (← next 8))

def many (r : Reader α) : ℕ → Reader (List α)
  | 0 => return []
  | n + 1 => do
    let a ← r
    let rest ← many r n
    return a :: rest

/-- A length of four bytes, and a subslice of this length. -/
def counted : Reader Bytes := do
  let n ← uint32
  sub n.toNat

/-- A count of four bytes, and as many items. -/
def items (r : Reader α) : Reader (List α) := do
  let n ← uint32
  many r n.toNat

/-- Return the error unless the next byte is `v`. -/
def expect (v : UInt8) (e : String) : Reader Unit := do
  let x ← byte
  if x ≠ v then fail e else return ()

/-- Return the error unless the buffer has `n` bytes. -/
def need (n : ℕ) (e : String) : Reader Unit := fun buf offset =>
  if buf.bytes.length < n then .error (.error e) else .ok ((), offset)

/-- Return the error unless the buffer has `n` more bytes. -/
def room (n : ℕ) (e : String) : Reader Unit := fun buf offset =>
  if buf.bytes.length < offset + n then .error (.error e) else .ok ((), offset)

variable {r : Reader α} {f : α → Reader β} {buf : Slice} {offset : ℕ}

theorem bind_of_error {e : Fault} (h : r buf offset = .error e) :
    (r >>= f) buf offset = .error e := by
  show (match r buf offset with
    | .error e => error e
    | .ok (a, mid) => f a buf mid) = _
  rw [h]

theorem bind_of_ok {mid : ℕ} {a : α} (h : r buf offset = .ok (a, mid)) :
    (r >>= f) buf offset = f a buf mid := by
  show (match r buf offset with
    | .error e => error e
    | .ok (a, mid) => f a buf mid) = _
  rw [h]

theorem bind_ok_iff {offset' : ℕ} {b : β} :
    (r >>= f) buf offset = .ok (b, offset') ↔
      ∃ a mid, r buf offset = .ok (a, mid) ∧ f a buf mid = .ok (b, offset') := by
  cases hr : r buf offset with
  | error e => simp [bind_of_error hr]
  | ok out =>
    obtain ⟨a, mid⟩ := out
    simp [bind_of_ok hr]

theorem run_ok_iff {a : α} : r.run buf = .ok a ↔ ∃ offset, r buf 0 = .ok (a, offset) := by
  rw [run]
  cases r buf 0 with
  | error e => simp [Except.map]
  | ok out =>
    obtain ⟨a', offset⟩ := out
    simp [Except.map]

end Reader

open Reader

/-! ## What a reader accepts -/

/-- On a slice that fills its array, `r` returns `a` exactly when the bytes that follow start with
some that are related to `a`. -/
def Reads {α : Type} (r : Reader α) (R : α → Bytes → Prop) : Prop :=
  ∀ (pre rest : Bytes) (a : α) (offset : ℕ),
    r (.full (pre ++ rest)) pre.length = .ok (a, offset) ↔
      ∃ used post, rest = used ++ post ∧ offset = pre.length + used.length ∧ R a used

variable {α β : Type} {r : Reader α} {R Q : α → Bytes → Prop}

theorem Reads.congr (h : Reads r R) (heq : ∀ a used, R a used ↔ Q a used) : Reads r Q := by
  intro pre rest a offset
  rw [h pre rest a offset]
  simp only [heq]

theorem Reads.pure (a : α) : Reads (Pure.pure a) (fun b used => b = a ∧ used = []) := by
  intro pre rest b offset
  constructor
  · intro h
    cases h
    exact ⟨[], rest, rfl, rfl, rfl, rfl⟩
  · rintro ⟨used, post, rfl, rfl, rfl, rfl⟩
    rfl

variable {f : α → Reader β} {n offset : ℕ} {encode : α → Bytes} {b : Bytes} {out : β × ℕ}

theorem Reads.bind {S : α → β → Bytes → Prop} (h : Reads r R) (hf : ∀ a, Reads (f a) (S a)) :
    Reads (r >>= f) (fun b used => ∃ a first second, used = first ++ second ∧ R a first ∧
      S a b second) := by
  intro pre rest b offset
  rw [bind_ok_iff]
  constructor
  · rintro ⟨a, mid, hr, hb⟩
    obtain ⟨first, post, rfl, rfl, hfirst⟩ := (h pre rest a mid).mp hr
    rw [← append_assoc, ← length_append] at hb
    obtain ⟨second, post, rfl, rfl, hsecond⟩ := (hf a (pre ++ first) post b offset).mp hb
    refine ⟨first ++ second, post, (append_assoc ..).symm, ?_, a, first, second, rfl, hfirst,
      hsecond⟩
    rw [length_append, length_append, add_assoc]
  · rintro ⟨used, post, rfl, rfl, a, first, second, rfl, hfirst, hsecond⟩
    refine ⟨a, pre.length + first.length, ?_, ?_⟩
    · rw [append_assoc]
      exact (h _ _ _ _).mpr ⟨first, second ++ post, rfl, rfl, hfirst⟩
    · rw [append_assoc, ← append_assoc, ← length_append]
      refine (hf a _ _ _ _).mpr ⟨second, post, rfl, ?_, hsecond⟩
      rw [length_append, length_append, add_assoc]

theorem Reads.fail (e : String) : Reads (Reader.fail e : Reader α) (fun _ _ => False) := by
  intro pre rest a offset
  constructor
  · intro h
    cases h
  · rintro ⟨_, _, _, _, h⟩
    exact h.elim

/-! ## Fields -/

theorem slice_reads (n : ℕ) (pre rest b : Bytes) (offset : ℕ) :
    ((if pre.length + n ≤ (pre ++ rest).length then
        .ok (slice (pre ++ rest) pre.length n, pre.length + n)
      else .error .panic : Except Fault (Bytes × ℕ)) = .ok (b, offset)) ↔
      ∃ used post, rest = used ++ post ∧ offset = pre.length + used.length ∧
        b = used ∧ used.length = n := by
  rw [slice_append_right (Nat.le_refl _), Nat.sub_self, length_append]
  constructor
  · intro h
    split at h
    · next hle =>
      cases h
      have hlen : (slice rest 0 n).length = n := length_slice (by omega)
      refine ⟨slice rest 0 n, rest.drop n, ?_, by rw [hlen], rfl, hlen⟩
      rw [slice, drop_zero, take_append_drop]
    · cases h
  · rintro ⟨used, post, rfl, rfl, rfl, rfl⟩
    rw [length_append, if_pos (by omega), slice_append_left rfl]

theorem reads_next (n : ℕ) : Reads (next n) (fun b used => b = used ∧ used.length = n) :=
  slice_reads n

theorem reads_sub (n : ℕ) : Reads (sub n) (fun b used => b = used ∧ used.length = n) := by
  intro pre rest b offset
  rw [← slice_reads n pre rest b offset, sub, Slice.full, length_nil, add_zero, append_nil]

variable {bytes : Reader Bytes} {value : Bytes → α}

theorem Reads.field (h : Reads bytes (fun b used => b = used ∧ used.length = n))
    (hencode : ∀ a, (encode a).length = n ∧ value (encode a) = a)
    (hvalue : ∀ b : Bytes, b.length = n → encode (value b) = b) :
    Reads (bytes >>= fun b => return value b) (fun a used => used = encode a) := by
  refine (h.bind fun b => Reads.pure (value b)).congr fun a used => ?_
  constructor
  · rintro ⟨b, first, second, rfl, ⟨rfl, hlen⟩, rfl, rfl⟩
    rw [hvalue b hlen, append_nil]
  · rintro rfl
    refine ⟨encode a, encode a, [], (append_nil _).symm, ⟨rfl, (hencode a).1⟩, ?_, rfl⟩
    exact (hencode a).2.symm

theorem reads_array (n : ℕ) : Reads (array n) (fun a used => used = a.bytes) := by
  refine (reads_sub n).field (fun a => ⟨a.length_bytes, ofSlice_bytes a⟩) ?_
  intro b hlen
  exact congrArg bytes (ofSlice_bytes ⟨b, hlen⟩)

theorem reads_byte : Reads byte (fun v used => used = [v]) := by
  refine (reads_next 1).field (fun v => ⟨rfl, rfl⟩) ?_
  intro b hlen
  obtain ⟨v, rfl⟩ := length_eq_one_iff.mp hlen
  rfl

theorem reads_uint16 : Reads uint16 (fun v used => used = putUint 2 v.toNat) := by
  refine (reads_next 2).field (fun v => ⟨length_putUint 2 _, ?_⟩) fun b hlen => ?_
  · have hlt : v.toNat < 256 ^ 2 := v.toNat_lt
    rw [getUint_putUint, mod_eq_of_lt hlt, UInt16.ofNat_toNat]
  · have hlt : getUint b < 256 ^ 2 := hlen ▸ getUint_lt b
    rw [UInt16.toNat_ofNat_of_lt' hlt, putUint_getUint hlen]

theorem reads_uint32 : Reads uint32 (fun v used => used = putUint32 v) := by
  refine (reads_next 4).field
    (fun v => ⟨length_putUint32 v, getUint32_putUint32 v⟩) fun b hlen => ?_
  have hlt : getUint b < 256 ^ 4 := hlen ▸ getUint_lt b
  rw [putUint32, toNat_ofNat_of_lt' hlt, putUint_getUint hlen]

theorem reads_uint64 : Reads uint64 (fun v used => used = putUint 8 v.toNat) := by
  refine (reads_next 8).field (fun v => ⟨length_putUint 8 _, ?_⟩) fun b hlen => ?_
  · have hlt : v.toNat < 256 ^ 8 := v.toNat_lt
    rw [getUint_putUint, mod_eq_of_lt hlt, UInt64.ofNat_toNat]
  · have hlt : getUint b < 256 ^ 8 := hlen ▸ getUint_lt b
    rw [UInt64.toNat_ofNat_of_lt' hlt, putUint_getUint hlen]

theorem Reads.many (h : Reads r (fun a used => used = encode a)) (n : ℕ) :
    Reads (Reader.many r n) (fun items used => items.length = n ∧ used = items.flatMap encode) := by
  induction n with
  | zero =>
    refine (Reads.pure []).congr fun items used => ?_
    constructor
    · rintro ⟨rfl, rfl⟩
      exact ⟨rfl, rfl⟩
    · rintro ⟨hlen, rfl⟩
      obtain rfl := length_eq_zero_iff.mp hlen
      exact ⟨rfl, rfl⟩
  | succ n ih =>
    refine (h.bind fun a => ih.bind fun rest => Reads.pure (a :: rest)).congr fun items used => ?_
    constructor
    · rintro ⟨a, first, second, rfl, rfl, rest, third, _, rfl, ⟨hlen, rfl⟩, rfl, rfl⟩
      refine ⟨by rw [length_cons, hlen], ?_⟩
      rw [append_nil, flatMap_cons]
    · rintro ⟨hlen, rfl⟩
      cases items with
      | nil => cases hlen
      | cons a rest =>
        refine ⟨a, _, _, flatMap_cons, rfl, rest, _, [], (append_nil _).symm, ⟨?_, rfl⟩,
          rfl, rfl⟩
        exact succ.inj hlen

theorem Reads.count {f : UInt32 → Reader α} (size : α → ℕ) {S : α → Bytes → Prop}
    (h : ∀ n, Reads (f n) (fun a used => size a = n.toNat ∧ S a used)) :
    Reads (uint32 >>= f) (fun a used => size a < 2 ^ 32 ∧
      ∃ rest, used = putUint 4 (size a) ++ rest ∧ S a rest) := by
  refine (reads_uint32.bind h).congr fun a used => ?_
  constructor
  · rintro ⟨n, _, rest, rfl, rfl, hsize, hS⟩
    refine ⟨hsize ▸ n.toNat_lt, rest, ?_, hS⟩
    rw [putUint32, hsize]
  · rintro ⟨hlt, rest, rfl, hS⟩
    have hsize : (ofNat (size a)).toNat = size a := toNat_ofNat_of_lt' hlt
    refine ⟨ofNat (size a), _, rest, rfl, ?_, hsize.symm, hS⟩
    rw [putUint32, hsize]

theorem reads_counted :
    Reads Reader.counted (fun b used => b.length < 2 ^ 32 ∧ used = putUint 4 b.length ++ b) := by
  have hsub (n : UInt32) : Reads (sub n.toNat) (fun b used => b.length = n.toNat ∧ used = b) := by
    refine (reads_sub n.toNat).congr fun b used => ?_
    constructor
    · rintro ⟨rfl, hlen⟩
      exact ⟨hlen, rfl⟩
    · rintro ⟨hlen, rfl⟩
      exact ⟨rfl, hlen⟩
  exact (Reads.count List.length hsub).congr fun b used => by simp

theorem Reads.items (h : Reads r (fun a used => used = encode a)) :
    Reads (Reader.items r) (fun as used => as.length < 2 ^ 32 ∧
      used = putUint 4 as.length ++ as.flatMap encode) := by
  exact (Reads.count List.length fun n => h.many n.toNat).congr fun as used => by simp

/-! ## Checks -/

theorem reads_expect (v : UInt8) (e : String) : Reads (expect v e) (fun _ used => used = [v]) := by
  have hcheck x : Reads (if x ≠ v then Reader.fail e else return ())
      (fun _ used => x = v ∧ used = []) := by
    split
    · next hne => exact (Reads.fail e).congr fun _ used => by simp [hne]
    · next heq => exact (Reads.pure ()).congr fun _ used => by simp [not_not.mp heq]
  refine (reads_byte.bind hcheck).congr fun _ used => ?_
  constructor
  · rintro ⟨x, _, _, rfl, rfl, rfl, rfl⟩
    rfl
  · rintro rfl
    exact ⟨v, [v], [], rfl, rfl, rfl, rfl⟩

/-- A check of the length loses nothing before a reader that uses as many bytes. -/
theorem Reads.check {check : Reader Unit} {e : Fault} {least : ℕ → ℕ} (h : Reads r R)
    (hcheck : ∀ buf offset, check buf offset =
      if buf.bytes.length < least offset then .error e else .ok ((), offset))
    (hlen : ∀ a used offset, R a used → least offset ≤ offset + used.length) :
    Reads (check >>= fun _ => r) R := by
  intro pre rest a offset
  rw [bind_ok_iff, ← h pre rest a offset]
  constructor
  · rintro ⟨_, mid, hpass, hr⟩
    rw [hcheck] at hpass
    split at hpass
    · cases hpass
    · cases hpass
      exact hr
  · intro hr
    obtain ⟨used, post, rfl, -, hR⟩ := (h pre rest a offset).mp hr
    have hle := hlen a used pre.length hR
    refine ⟨(), pre.length, (hcheck _ _).trans (if_neg ?_), hr⟩
    simp only [Slice.full, length_append]
    omega

theorem Reads.need (h : Reads r R) (hlen : ∀ a used, R a used → n ≤ used.length) (e : String) :
    Reads (Reader.need n e >>= fun _ => r) R :=
  h.check (fun _ _ => rfl) fun a used _ hR => le_add_left (hlen a used hR)

theorem Reads.room (h : Reads r R) (hlen : ∀ a used, R a used → n ≤ used.length) (e : String) :
    Reads (Reader.room n e >>= fun _ => r) R :=
  h.check (fun _ _ => rfl) fun a used offset hR => Nat.add_le_add_left (hlen a used hR) offset

/-! ## Whole decoders -/

theorem Reads.run_ok_iff (h : Reads r R) (b : Bytes) (a : α) :
    r.run (.full b) = .ok a ↔ ∃ used post, b = used ++ post ∧ R a used := by
  rw [Reader.run_ok_iff]
  constructor
  · rintro ⟨offset, hr⟩
    obtain ⟨used, post, heq, -, hR⟩ := (h [] b a offset).mp hr
    exact ⟨used, post, heq, hR⟩
  · rintro ⟨used, post, heq, hR⟩
    exact ⟨_, (h [] b a _).mpr ⟨used, post, heq, rfl, hR⟩⟩

theorem Reads.encode_inj {Small : α → Prop} (h : Reads r (fun a used => used = encode a ∧ Small a))
    {a b : α} (ha : Small a) (hb : Small b) (heq : encode a = encode b) : a = b := by
  have hra : r.run (.full (encode a)) = .ok a :=
    (h.run_ok_iff _ a).mpr ⟨_, [], (append_nil _).symm, rfl, ha⟩
  have hrb : r.run (.full (encode a)) = .ok b :=
    (h.run_ok_iff _ b).mpr ⟨_, [], (append_nil _).symm, heq, hb⟩
  exact ok.inj (hra.symm.trans hrb)

/-! ## Fields at known offsets -/

theorem sub_full (n : ℕ) (b : Bytes) (offset : ℕ) :
    sub n (.full b) offset =
      if offset + n ≤ b.length then .ok (slice b offset n, offset + n) else .error .panic := by
  rw [sub, Slice.full, length_nil, add_zero, append_nil]

theorem field_bind_ok_iff
    (h : bytes (.full b) offset =
      if offset + n ≤ b.length then .ok (slice b offset n, offset + n) else .error .panic) :
    ((bytes >>= fun x => return value x) >>= f) (.full b) offset = .ok out ↔
      offset + n ≤ b.length ∧ f (value (slice b offset n)) (.full b) (offset + n) = .ok out := by
  by_cases hle : offset + n ≤ b.length
  · rw [if_pos hle] at h
    have hfield : (bytes >>= fun x => return value x) (.full b) offset =
        .ok (value (slice b offset n), offset + n) := bind_of_ok h
    rw [bind_of_ok hfield]
    exact (and_iff_right hle).symm
  · rw [if_neg hle] at h
    rw [bind_of_error (bind_of_error h)]
    simp [hle]

theorem array_bind_ok_iff {f : ByteArr n → Reader β} :
    (array n >>= f) (.full b) offset = .ok out ↔ offset + n ≤ b.length ∧
      f (ofSlice n (slice b offset n)) (.full b) (offset + n) = .ok out :=
  field_bind_ok_iff (sub_full n b offset)

theorem byte_bind_ok_iff {f : UInt8 → Reader β} :
    (byte >>= f) (.full b) offset = .ok out ↔ offset + 1 ≤ b.length ∧
      f ((slice b offset 1).headD 0) (.full b) (offset + 1) = .ok out :=
  field_bind_ok_iff rfl

theorem uint64_bind_ok_iff {f : UInt64 → Reader β} :
    (uint64 >>= f) (.full b) offset = .ok out ↔ offset + 8 ≤ b.length ∧
      f (UInt64.ofNat (getUint (slice b offset 8))) (.full b) (offset + 8) = .ok out :=
  field_bind_ok_iff rfl

def countAt (b : Bytes) (offset : ℕ) : ℕ := getUint (slice b offset 4)

theorem counted_bind_ok_iff {f : Bytes → Reader β} :
    (counted >>= f) (.full b) offset = .ok out ↔ offset + 4 + countAt b offset ≤ b.length ∧
      f (slice b (offset + 4) (countAt b offset)) (.full b) (offset + 4 + countAt b offset) =
        .ok out := by
  by_cases hle : offset + 4 ≤ b.length
  · have hlt : getUint (slice b offset 4) < 2 ^ 32 := by
      have h := getUint_lt (slice b offset 4)
      rwa [length_slice hle] at h
    have hcount : counted (.full b) offset = sub (countAt b offset) (.full b) (offset + 4) := by
      have hnext : uint32 (.full b) offset =
          .ok (ofNat (getUint (slice b offset 4)), offset + 4) :=
        bind_of_ok (show next 4 (.full b) offset = _ from if_pos hle)
      rw [counted, bind_of_ok hnext, toNat_ofNat_of_lt' hlt, countAt]
    rw [sub_full] at hcount
    by_cases hfits : offset + 4 + countAt b offset ≤ b.length
    · rw [if_pos hfits] at hcount
      rw [bind_of_ok hcount]
      exact (and_iff_right hfits).symm
    · rw [if_neg hfits] at hcount
      rw [bind_of_error hcount]
      simp [hfits]
  · have hnext : uint32 (.full b) offset = .error .panic :=
      bind_of_error (show next 4 (.full b) offset = _ from if_neg hle)
    have hcount : counted (.full b) offset = .error .panic := bind_of_error hnext
    have hfits : ¬ offset + 4 + countAt b offset ≤ b.length := by omega
    rw [bind_of_error hcount]
    simp [hfits]

/-- The reader makes no check of its own. -/
def OnlyPanics (r : Reader α) : Prop := ∀ buf offset e, r buf offset = .error e → e = .panic

@[simp] theorem OnlyPanics.pure (a : α) : OnlyPanics (Pure.pure a : Reader α) := by
  intro buf offset e h
  cases h

theorem OnlyPanics.bind (h : OnlyPanics r) (hf : ∀ a, OnlyPanics (f a)) : OnlyPanics (r >>= f) := by
  intro buf offset e heq
  cases hr : r buf offset with
  | error fault =>
    rw [bind_of_error hr] at heq
    cases heq
    exact h buf offset e hr
  | ok out =>
    rw [bind_of_ok hr] at heq
    exact hf out.1 buf out.2 e heq

@[simp] theorem onlyPanics_next (n : ℕ) : OnlyPanics (next n) := by
  intro buf offset e h
  unfold Reader.next at h
  split at h <;> cases h
  rfl

@[simp] theorem onlyPanics_sub (n : ℕ) : OnlyPanics (sub n) := by
  intro buf offset e h
  unfold sub at h
  split at h <;> cases h
  rfl

@[simp] theorem onlyPanics_array (n : ℕ) : OnlyPanics (array n) :=
  (onlyPanics_sub n).bind fun _ => .pure _

@[simp] theorem onlyPanics_byte : OnlyPanics byte := (onlyPanics_next 1).bind fun _ => .pure _

@[simp] theorem onlyPanics_uint16 : OnlyPanics uint16 := (onlyPanics_next 2).bind fun _ => .pure _

@[simp] theorem onlyPanics_uint32 : OnlyPanics uint32 := (onlyPanics_next 4).bind fun _ => .pure _

@[simp] theorem onlyPanics_uint64 : OnlyPanics uint64 := (onlyPanics_next 8).bind fun _ => .pure _

theorem OnlyPanics.many (h : OnlyPanics r) (n : ℕ) : OnlyPanics (Reader.many r n) := by
  induction n with
  | zero => exact .pure _
  | succ n ih => exact h.bind fun _ => ih.bind fun _ => .pure _

@[simp] theorem onlyPanics_counted : OnlyPanics Reader.counted :=
  onlyPanics_uint32.bind fun n => onlyPanics_sub n.toNat

@[simp] theorem OnlyPanics.items (h : OnlyPanics r) : OnlyPanics (Reader.items r) :=
  onlyPanics_uint32.bind fun n => h.many n.toNat

/-! ## Slices that do not fill their array -/

/-- The slice ends no later, and its array holds the same bytes as far as it goes. -/
structure Slice.Within (buf buf' : Slice) : Prop where
  bytes : buf.bytes <+: buf'.bytes
  array : buf.bytes ++ buf.spare <+: buf'.bytes ++ buf'.spare

theorem Slice.within_full (buf : Slice) : buf.Within (.full (buf.bytes ++ buf.spare)) where
  bytes := prefix_append _ _
  array := by
    exact prefix_append _ _

theorem Slice.full_within (buf : Slice) : (Slice.full buf.bytes).Within buf where
  bytes := prefix_rfl
  array := by
    rw [Slice.full, append_nil]
    exact prefix_append _ _

/-- What a reader returns for a slice it returns for every slice that contains it. -/
def Widens (r : Reader α) : Prop :=
  ∀ ⦃buf buf' : Slice⦄ ⦃offset : ℕ⦄ ⦃out : α × ℕ⦄, buf.Within buf' →
    r buf offset = .ok out → r buf' offset = .ok out

theorem slice_within {b' : Bytes} {off len : ℕ} (h : b <+: b') (hle : off + len ≤ b.length) :
    slice b' off len = slice b off len := by
  obtain ⟨t, rfl⟩ := h
  rw [slice, slice, drop_append_of_le_length (by omega), take_append_of_le_length]
  rw [length_drop]
  omega

theorem Widens.pure (a : α) : Widens (Pure.pure a : Reader α) := fun _ _ _ _ _ h => h

theorem Widens.bind (h : Widens r) (hf : ∀ a, Widens (f a)) : Widens (r >>= f) := by
  rintro buf buf' offset ⟨b, offset'⟩ hwithin hok
  obtain ⟨a, mid, hr, hb⟩ := bind_ok_iff.mp hok
  exact bind_ok_iff.mpr ⟨a, mid, h hwithin hr, hf a hwithin hb⟩

theorem widens_next (n : ℕ) : Widens (next n) := by
  intro buf buf' offset out hwithin hok
  unfold Reader.next at hok ⊢
  split at hok
  · next hle =>
    have hle' := hle.trans hwithin.bytes.length_le
    rw [if_pos hle', slice_within hwithin.bytes hle]
    exact hok
  · cases hok

theorem widens_sub (n : ℕ) : Widens (sub n) := by
  intro buf buf' offset out hwithin hok
  unfold sub at hok ⊢
  rw [← length_append] at hok ⊢
  split at hok
  · next hle =>
    have hle' := hle.trans hwithin.array.length_le
    rw [if_pos hle', slice_within hwithin.array hle]
    exact hok
  · cases hok

theorem widens_array (n : ℕ) : Widens (array n) := (widens_sub n).bind fun _ => .pure _

theorem widens_byte : Widens byte := (widens_next 1).bind fun _ => .pure _

theorem widens_uint16 : Widens uint16 := (widens_next 2).bind fun _ => .pure _

theorem widens_uint32 : Widens uint32 := (widens_next 4).bind fun _ => .pure _

theorem widens_uint64 : Widens uint64 := (widens_next 8).bind fun _ => .pure _

theorem widens_counted : Widens Reader.counted := widens_uint32.bind fun n => widens_sub n.toNat

/-- What a reader returns ends inside the slice, not in the rest of its array. -/
def EndsInside (r : Reader α) : Prop :=
  ∀ ⦃buf : Slice⦄ ⦃offset : ℕ⦄ ⦃out : α × ℕ⦄, r buf offset = .ok out → out.2 ≤ buf.bytes.length

theorem endsInside_uint32 (f : UInt32 → α) : EndsInside (uint32 >>= fun n => return f n) := by
  rintro buf offset ⟨a, offset'⟩ hok
  obtain ⟨n, mid, hn, hpure⟩ := bind_ok_iff.mp hok
  obtain ⟨b, mid', hnext, hn⟩ := bind_ok_iff.mp hn
  cases hpure
  cases hn
  unfold Reader.next at hnext
  split at hnext
  · next hle =>
    cases hnext
    exact hle
  · cases hnext

theorem EndsInside.bind (hf : ∀ a, EndsInside (f a)) : EndsInside (r >>= f) := by
  rintro buf offset ⟨b, offset'⟩ hok
  obtain ⟨a, mid, -, hb⟩ := bind_ok_iff.mp hok
  exact hf a hb

/-! ## Decoders that panic -/

theorem run_need (n : ℕ) (e : String) (r : Reader α) (buf : Slice) :
    (Reader.need n e >>= fun _ => r).run buf =
      if buf.bytes.length < n then .error (.error e) else r.run buf := by
  rw [Reader.run]
  split
  · next hlt =>
    rw [bind_of_error (show Reader.need n e buf 0 = _ from if_pos hlt)]
    rfl
  · next hge =>
    rw [bind_of_ok (show Reader.need n e buf 0 = _ from if_neg hge)]
    rfl

theorem OnlyPanics.run (h : OnlyPanics r) (buf : Slice) :
    r.run buf ≠ .error .panic ↔ ∃ a, r.run buf = .ok a := by
  rw [Reader.run]
  cases hr : r buf 0 with
  | error e =>
    rw [h buf 0 e hr]
    simp [Except.map]
  | ok out => simp [Except.map]

end Wire
