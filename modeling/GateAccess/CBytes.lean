import Mathlib.Data.Vector.Basic
import Mathlib.Data.List.TakeWhile

namespace GateAccess

abbrev Bytes (n : Nat) := List.Vector UInt8 n

/-- The bytes of an ASCII literal, without the terminator. -/
def ascii (s : String) : List UInt8 := s.toList.map fun c => UInt8.ofNat c.toNat

theorem ascii_ofList (l : List Char) :
    ascii (String.ofList l) = l.map fun c => UInt8.ofNat c.toNat := by
  rw [ascii, String.toList_ofList]

def zeros (n : Nat) : Bytes n := List.Vector.replicate n 0

def putByte {n : Nat} (b : Bytes n) (i : Nat) (c : UInt8) : Bytes n :=
  ⟨b.toList.set i c, by simp⟩

def fill (n : Nat) (src : List UInt8) : Bytes n :=
  ⟨(src ++ List.replicate n 0).take n, by simp⟩

/-- The string a C function reads from a buffer: everything before the first NUL. -/
def cstr (buf : List UInt8) : List UInt8 := buf.takeWhile (· ≠ 0)

def isDigit (c : UInt8) : Bool := 48 ≤ c && c ≤ 57

/-- `strncmp(a, b, n) == 0`; a list that ends early is read as terminated there. -/
def strncmpEq : Nat → List UInt8 → List UInt8 → Bool
  | 0, _, _ => true
  | n + 1, a, b => a.headD 0 == b.headD 0 && (a.headD 0 == 0 || strncmpEq n a.tail b.tail)

/-- `strncpy(dst, src, n)`: at most `n` characters, the rest filled with NUL. -/
def strncpy (n : Nat) (src : List UInt8) : Bytes n :=
  ⟨(cstr src).take n ++ List.replicate (n - (cstr src).length) 0, by
    simp only [List.length_append, List.length_take, List.length_replicate]
    omega⟩

/-- `snprintf(dst, n, "%s", src)`: at most `n - 1` characters, and a NUL. -/
def snprintf (n : Nat) (src : List UInt8) : Bytes n := fill n ((cstr src).take (n - 1))

/-- The `diff |= a[i] ^ b[i]` loop, which reads every byte whatever it finds. -/
def ctDiff : List UInt8 → List UInt8 → UInt8 → UInt8
  | x :: a, y :: b, diff => ctDiff a b (diff ||| (x ^^^ y))
  | _, _, diff => diff

def ctEqual (a b : List UInt8) : Bool := ctDiff a b 0 == 0

theorem ctDiff_eq_zero {a b : List UInt8} {diff : UInt8} (hl : a.length = b.length) :
    ctDiff a b diff = 0 ↔ diff = 0 ∧ a = b := by
  induction a generalizing b diff with
  | nil =>
    have hb : b = [] := List.length_eq_zero_iff.mp hl.symm
    simp [ctDiff, hb]
  | cons x a ih =>
    cases b with
    | nil => simp at hl
    | cons y b =>
      have hl' : a.length = b.length := by simpa using hl
      simp only [ctDiff, ih hl', UInt8.or_eq_zero_iff, UInt8.xor_eq_zero_iff, List.cons.injEq]
      exact and_assoc

theorem ctEqual_iff {a b : List UInt8} (hl : a.length = b.length) :
    ctEqual a b = true ↔ a = b := by
  simp [ctEqual, ctDiff_eq_zero hl]

@[simp] theorem ctEqual_toList {n : Nat} (a b : Bytes n) :
    ctEqual a.toList b.toList = true ↔ a = b := by
  rw [ctEqual_iff (by simp), List.Vector.toList_injective.eq_iff]

theorem cstr_cons {c : UInt8} {s : List UInt8} :
    cstr (c :: s) = if c = 0 then [] else c :: cstr s := by
  by_cases hc : c = 0 <;> simp [cstr, hc]

theorem strncmpEq_iff {n : Nat} {a b : List UInt8} :
    strncmpEq n a b = true ↔ (cstr a).take n = (cstr b).take n := by
  induction n generalizing a b with
  | zero => simp [strncmpEq]
  | succ n ih =>
    cases a with
    | nil =>
      cases b with
      | nil => simp [strncmpEq, cstr]
      | cons y b =>
        by_cases hy : y = 0
        · simp [strncmpEq, cstr, hy]
        · simp [strncmpEq, cstr, hy, Ne.symm hy]
    | cons x a =>
      by_cases hx : x = 0
      · cases b with
        | nil => simp [strncmpEq, cstr, hx]
        | cons y b =>
          by_cases hy : y = 0
          · simp [strncmpEq, cstr, hx, hy]
          · simp [strncmpEq, cstr, hx, hy, Ne.symm hy]
      · cases b with
        | nil => simp [strncmpEq, cstr, hx]
        | cons y b =>
          by_cases hxy : x = y
          · subst y
            simp [strncmpEq, cstr_cons, hx, ih]
          · by_cases hy : y = 0
            · simp [strncmpEq, cstr_cons, hx, hy]
            · simp [strncmpEq, cstr_cons, hx, hy, hxy]

theorem cstr_eq_self {s : List UInt8} (h : 0 ∉ s) : cstr s = s := by
  apply List.takeWhile_eq_self_iff.mpr
  intro c hc
  simpa using fun h0 : c = 0 => h (h0 ▸ hc)

theorem zero_not_mem_cstr (s : List UInt8) : 0 ∉ cstr s := fun h => by
  simpa using List.mem_takeWhile_imp h

@[simp] theorem cstr_cstr (s : List UInt8) : cstr (cstr s) = cstr s :=
  cstr_eq_self (zero_not_mem_cstr s)

/-- The NULs that pad a buffer are not part of its string. -/
theorem cstr_pad (s : List UInt8) (k : Nat) : cstr (s ++ List.replicate k 0) = cstr s := by
  induction s with
  | nil => cases k <;> simp [cstr, List.replicate_succ]
  | cons c s ih => rw [List.cons_append, cstr_cons, cstr_cons, ih]

theorem cstr_append_zeros {s : List UInt8} {k : Nat} (h : 0 ∉ s) :
    cstr (s ++ List.replicate k 0) = s := (cstr_pad s k).trans (cstr_eq_self h)

theorem cstr_fill {n : Nat} {s : List UInt8} (h : s.length ≤ n) : cstr (fill n s).toList = cstr s := by
  have hpad : (fill n s).toList = s ++ List.replicate (n - s.length) 0 := by
    simp [fill, List.take_append, List.take_of_length_le h]
  rw [hpad, cstr_pad]

theorem cstr_take (s : List UInt8) (n : Nat) : cstr ((cstr s).take n) = (cstr s).take n :=
  cstr_eq_self fun h => zero_not_mem_cstr s (List.mem_of_mem_take h)

theorem cstr_snprintf (n : Nat) (s : List UInt8) :
    cstr (snprintf n s).toList = (cstr s).take (n - 1) := by
  have hlen : ((cstr s).take (n - 1)).length ≤ n :=
    (List.length_take_le _ _).trans (Nat.sub_le n 1)
  rw [snprintf, cstr_fill hlen, cstr_take]

theorem cstr_snprintf_iff {n : Nat} {s : List UInt8} :
    cstr (snprintf n s).toList = cstr s ↔ (cstr s).length ≤ n - 1 := by
  rw [cstr_snprintf, List.take_eq_self_iff]

end GateAccess
