import Mathlib.Data.Vector.Basic

namespace GateAccess

/-- A reader of a byte string: what it reads, and the bytes that it leaves. It looks at no byte
that it leaves. -/
structure ByteReader (α : Type) where
  read : List UInt8 → Option (α × List UInt8)
  framed : ∀ {input a rest}, read input = some (a, rest) →
    ∃ used, input = used ++ rest ∧ ∀ rest', read (used ++ rest') = some (a, rest')

namespace ByteReader

variable {α β : Type}

instance : Monad ByteReader where
  pure a := ⟨fun input => some (a, input), fun {input a' rest} h => by
    obtain ⟨rfl, rfl⟩ := Prod.mk.inj (Option.some.inj h)
    exact ⟨[], rfl, fun _ => rfl⟩⟩
  bind p f := ⟨fun input => (p.read input).bind fun r => (f r.1).read r.2,
    fun {input b rest} h => by
      obtain ⟨⟨a, mid⟩, ha, hb⟩ := Option.bind_eq_some_iff.mp h
      obtain ⟨first, rfl, hfirst⟩ := p.framed ha
      obtain ⟨second, rfl, hsecond⟩ := (f a).framed hb
      refine ⟨first ++ second, (List.append_assoc ..).symm, fun rest' => ?_⟩
      rw [List.append_assoc, hfirst]
      exact hsecond rest'⟩

theorem read_pure (a : α) (input : List UInt8) :
    (pure a : ByteReader α).read input = some (a, input) := rfl

theorem read_bind (p : ByteReader α) (f : α → ByteReader β) (input : List UInt8) :
    (p >>= f).read input = (p.read input).bind fun r => (f r.1).read r.2 := rfl

/-- A reader that reads one thing after another is taken apart at the bytes between them. -/
theorem read_bind_eq_some {p : ByteReader α} {f : α → ByteReader β} {input rest : List UInt8}
    {b : β} : (p >>= f).read input = some (b, rest) ↔
      ∃ a mid, p.read input = some (a, mid) ∧ (f a).read mid = some (b, rest) := by
  rw [read_bind, Option.bind_eq_some_iff, Prod.exists]

theorem read_pure_eq_some {a b : α} {input rest : List UInt8} :
    (pure a : ByteReader α).read input = some (b, rest) ↔ a = b ∧ input = rest := by
  rw [read_pure, Option.some.injEq, Prod.mk.injEq]

/-- What is put behind a string is left as it is. -/
theorem read_append {p : ByteReader α} {input rest : List UInt8} {a : α}
    (h : p.read input = some (a, rest)) (more : List UInt8) :
    p.read (input ++ more) = some (a, rest ++ more) := by
  obtain ⟨used, rfl, hmore⟩ := p.framed h
  rw [List.append_assoc]
  exact hmore (rest ++ more)

def fail : ByteReader α := ⟨fun _ => none, fun h => nomatch h⟩

def byte : ByteReader UInt8 where
  read
    | [] => none
    | b :: rest => some (b, rest)
  framed {input b rest} h := by
    cases input with
    | nil => cases h
    | cons head tail =>
      obtain ⟨rfl, rfl⟩ := Prod.mk.inj (Option.some.inj h)
      exact ⟨[head], rfl, fun _ => rfl⟩

theorem byte_eq_some {input rest : List UInt8} {b : UInt8} :
    byte.read input = some (b, rest) ↔ input = b :: rest := by
  cases input with
  | nil => simp [byte]
  | cons head tail => simp [byte]

/-- The next `n` bytes. -/
def bytes : (n : Nat) → ByteReader (List.Vector UInt8 n)
  | 0 => pure List.Vector.nil
  | n + 1 => do
    let b ← byte
    let bs ← bytes n
    pure (b ::ᵥ bs)

/-- The 16-bit number of two bytes in network order. -/
def ofBytes (high low : UInt8) : Nat := high.toNat * 256 + low.toNat

def word : ByteReader Nat := do
  let high ← byte
  let low ← byte
  pure (ofBytes high low)

theorem word_eq_some {input rest : List UInt8} {n : Nat} : word.read input = some (n, rest) ↔
    ∃ high low : UInt8, input = high :: low :: rest ∧ ofBytes high low = n := by
  simp only [word, read_bind_eq_some, read_pure_eq_some, byte_eq_some]
  constructor
  · rintro ⟨high, mid, rfl, low, rest', rfl, hn, rfl⟩
    exact ⟨high, low, rfl, hn⟩
  · rintro ⟨high, low, rfl, hn⟩
    exact ⟨high, low :: rest, rfl, low, rest, rfl, hn, rfl⟩

def many (p : ByteReader α) : Nat → ByteReader (List α)
  | 0 => pure []
  | n + 1 => do
    let a ← p
    let as ← many p n
    pure (a :: as)

theorem many_zero {p : ByteReader α} {input rest : List UInt8} {as : List α} :
    (p.many 0).read input = some (as, rest) ↔ as = [] ∧ input = rest := by
  rw [many, read_pure_eq_some, eq_comm]

theorem many_succ {p : ByteReader α} {n : Nat} {input rest : List UInt8} {as : List α} :
    (p.many (n + 1)).read input = some (as, rest) ↔ ∃ a tail mid,
      p.read input = some (a, mid) ∧ (p.many n).read mid = some (tail, rest) ∧ a :: tail = as := by
  simp only [many, read_bind_eq_some, read_pure_eq_some]
  constructor
  · rintro ⟨a, mid, ha, tail, rest', htail, has, rfl⟩
    exact ⟨a, tail, mid, ha, htail, has⟩
  · rintro ⟨a, tail, mid, ha, htail, has⟩
    exact ⟨a, mid, ha, tail, rest, htail, has, rfl⟩

theorem many_nil {p : ByteReader α} {n : Nat} {input rest : List UInt8}
    (h : (p.many n).read input = some ([], rest)) : input = rest := by
  cases n with
  | zero => exact (many_zero.mp h).2
  | succ n =>
    obtain ⟨_, _, _, _, _, hcons⟩ := many_succ.mp h
    exact absurd hcons (List.cons_ne_nil _ _)

theorem many_length {p : ByteReader α} {n : Nat} {input rest : List UInt8} {as : List α}
    (h : (p.many n).read input = some (as, rest)) : as.length = n := by
  induction n generalizing input as with
  | zero => rw [(many_zero.mp h).1, List.length_nil]
  | succ n ih =>
    obtain ⟨a, tail, mid, _, htail, rfl⟩ := many_succ.mp h
    rw [List.length_cons, ih htail]

end ByteReader

end GateAccess
