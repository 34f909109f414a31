import Zentalk.Lib.Bytes

/-!
# Filling a buffer field by field

`Layout.run_eq`: the fields fill a buffer of their size, in order.
-/

namespace Wire

open List

/-- One statement that writes at the offset. -/
inductive Write
  /-- `copy(buf[offset:], src)`. -/
  | copy (src : Bytes)
  /-- `binary.BigEndian.PutUint16(buf[offset:], v)` and the like, or `buf[offset] = v`. -/
  | put (src : Bytes)

namespace Write

def bytes : Write → Bytes
  | copy src => src
  | put src => src

@[simp] theorem bytes_copy (src : Bytes) : (copy src).bytes = src := rfl

@[simp] theorem bytes_put (src : Bytes) : (put src).bytes = src := rfl

/-- The buffer after the statement; `none` when it panics. -/
def into (buf : Bytes) (offset : ℕ) : Write → Option Bytes
  | copy src =>
    if offset ≤ buf.length then
      some (buf.take offset ++ src.take (buf.length - offset) ++ buf.drop (offset + src.length))
    else none
  | put src =>
    if offset + src.length ≤ buf.length then
      some (buf.take offset ++ src ++ buf.drop (offset + src.length))
    else none

theorem into_fits (w : Write) (pre old post : Bytes) (h : old.length = w.bytes.length) :
    w.into (pre ++ (old ++ post)) pre.length = some (pre ++ (w.bytes ++ post)) := by
  have hdrop : (pre ++ (old ++ post)).drop (pre.length + w.bytes.length) = post := by
    rw [← drop_drop, drop_left, ← h, drop_left]
  have hlen : (pre ++ (old ++ post)).length = pre.length + w.bytes.length + post.length := by
    rw [length_append, length_append, h, Nat.add_assoc]
  cases w with
  | copy src =>
    have hcut : src.take ((pre ++ (old ++ post)).length - pre.length) = src := by
      refine take_of_length_le ?_
      rw [hlen, bytes]
      omega
    rw [into, if_pos (by omega), hcut, take_left, append_assoc]
    exact congrArg (fun b => some (pre ++ (src ++ b))) hdrop
  | put src =>
    rw [bytes] at hlen
    rw [into, if_pos (by omega), take_left, append_assoc]
    exact congrArg (fun b => some (pre ++ (src ++ b))) hdrop

end Write

/-- The statements of an encoder, from an offset on. -/
def fill : List Write → Bytes → ℕ → Option Bytes
  | [], buf, _ => some buf
  | w :: writes, buf, offset =>
    (w.into buf offset).bind fun buf => fill writes buf (offset + w.bytes.length)

theorem fill_fits (writes : List Write) (pre : Bytes) {old : Bytes}
    (h : old.length = (writes.flatMap Write.bytes).length) :
    fill writes (pre ++ old) pre.length = some (pre ++ writes.flatMap Write.bytes) := by
  induction writes generalizing pre old with
  | nil =>
    obtain rfl := length_eq_zero_iff.mp h
    rfl
  | cons w writes ih =>
    rw [flatMap_cons, length_append] at h
    have hfirst : (old.take w.bytes.length).length = w.bytes.length := by
      rw [length_take]
      omega
    have hrest : (old.drop w.bytes.length).length = (writes.flatMap Write.bytes).length := by
      rw [length_drop]
      omega
    have hstep := w.into_fits pre _ (old.drop w.bytes.length) hfirst
    rw [take_append_drop] at hstep
    rw [fill, hstep, Option.bind_some, ← append_assoc, ← length_append, ih _ hrest,
      flatMap_cons, append_assoc]

/-- An encoder: the size of the buffer it makes, and its statements. -/
structure Layout where
  size : ℕ
  writes : List Write

namespace Layout

/-- The buffer that the encoder returns; `none` when it panics. -/
def run (l : Layout) : Option Bytes := fill l.writes (List.replicate l.size 0) 0

/-- The fields one after the other. -/
def content (l : Layout) : Bytes := l.writes.flatMap Write.bytes

@[simp] theorem content_mk (size : ℕ) (writes : List Write) :
    content ⟨size, writes⟩ = writes.flatMap Write.bytes := rfl

theorem run_eq {l : Layout} (h : l.size = l.content.length) : l.run = some l.content :=
  fill_fits l.writes [] (by rw [length_replicate, h, content])

end Layout

end Wire
