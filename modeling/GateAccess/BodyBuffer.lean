import GateAccess.CBytes
import Mathlib.Data.List.Infix

namespace GateAccess

/-- A buffer that collects a body of at most `max` bytes, with room for the terminator. A length of
`max + 1` marks a body that did not fit. -/
structure BodyBuffer (max : Nat) where
  bytes : Bytes (max + 1)
  len : Nat

variable {max : Nat}

/-- One piece of the body arrives: it is copied behind the others, or poisons the buffer. -/
def BodyBuffer.onData (b : BodyBuffer max) (data : List UInt8) : BodyBuffer max :=
  if h : b.len + data.length > max then { b with len := max + 1 }
  else
    ⟨⟨b.bytes.toList.take b.len ++ data ++ b.bytes.toList.drop (b.len + data.length), by
      simp only [List.length_append, List.length_take, List.length_drop, List.Vector.toList_length]
      omega⟩, b.len + data.length⟩

/-- The terminator goes behind what is there. -/
def BodyBuffer.terminated (b : BodyBuffer max) : BodyBuffer max :=
  { b with bytes := putByte b.bytes b.len 0 }

/-- The buffer holds this much of a body, or is poisoned by it. -/
structure BodyBuffer.Collects (b : BodyBuffer max) (body : List UInt8) : Prop where
  len : b.len = if body.length ≤ max then body.length else max + 1
  bytes : body.length ≤ max → b.bytes.toList.take body.length = body

theorem BodyBuffer.Collects.start {b : BodyBuffer max} (h : b.len = 0) : b.Collects [] where
  len := by simp [h]
  bytes := by simp

theorem BodyBuffer.Collects.onData {b : BodyBuffer max} {body : List UInt8} (h : b.Collects body)
    (data : List UInt8) : (b.onData data).Collects (body ++ data) := by
  obtain ⟨hlen, hbytes⟩ := h
  unfold BodyBuffer.onData
  by_cases hfits : (body ++ data).length ≤ max
  · rw [List.length_append] at hfits
    rw [if_pos (show body.length ≤ max by omega)] at hlen
    rw [dif_neg (by omega)]
    refine ⟨?_, fun _ => ?_⟩
    · rw [List.length_append, if_pos hfits, ← hlen]
    have htake := hbytes (by omega)
    change ((b.bytes.toList.take b.len ++ data) ++ _).take (body ++ data).length = body ++ data
    rw [hlen, htake, List.take_left]
  · refine ⟨?_, fun h => absurd h hfits⟩
    rw [if_neg hfits]
    rw [List.length_append] at hfits
    rw [dif_pos]
    split at hlen <;> omega

/-- However a body is cut into pieces, the buffer ends up with all of it or poisoned. -/
theorem BodyBuffer.Collects.pieces {b : BodyBuffer max} {body : List UInt8} (h : b.Collects body)
    (pieces : List (List UInt8)) :
    (pieces.foldl BodyBuffer.onData b).Collects (body ++ pieces.flatten) := by
  induction pieces generalizing b body with
  | nil => simpa using h
  | cons piece pieces ih =>
    rw [List.flatten_cons, ← List.append_assoc]
    exact ih (h.onData piece)

theorem cstr_append_zero (s t : List UInt8) : cstr (s ++ 0 :: t) = cstr s := by
  induction s with
  | nil => rw [List.nil_append, cstr_cons, if_pos rfl]; rfl
  | cons c s ih => rw [List.cons_append, cstr_cons, cstr_cons, ih]

/-- The string read from a buffer that was terminated behind the body. -/
theorem BodyBuffer.Collects.text {b : BodyBuffer max} {body : List UInt8} (h : b.Collects body)
    (hfits : body.length ≤ max) : cstr b.terminated.bytes.toList = cstr body := by
  have hlen : b.len = body.length := by rw [h.len, if_pos hfits]
  have htake := h.bytes hfits
  have hlt : body.length < b.bytes.toList.length := by
    rw [List.Vector.toList_length]
    omega
  have hset : b.terminated.bytes.toList = body ++ 0 :: b.bytes.toList.drop (body.length + 1) := by
    change b.bytes.toList.set b.len 0 = _
    rw [hlen, List.set_eq_take_append_cons_drop, if_pos hlt, htake]
  rw [hset, cstr_append_zero]

end GateAccess
