import GateAccess.CBytes
import Mathlib.Data.List.DropRight

namespace GateAccess

def strstr (needle : List UInt8) : List UInt8 → Option Nat
  | [] => if needle.isEmpty then some 0 else none
  | c :: cs => if needle.isPrefixOf (c :: cs) then some 0 else (strstr needle cs).map (· + 1)

theorem strstr_some {needle s : List UInt8} {k : Nat} (h : strstr needle s = some k) :
    needle <+: s.drop k := by
  induction s generalizing k with
  | nil =>
    by_cases hn : needle.isEmpty
    · simp [List.isEmpty_iff.mp hn]
    · simp [strstr, hn] at h
  | cons c cs ih =>
    by_cases hp : needle.isPrefixOf (c :: cs)
    · simp only [strstr, hp, if_true] at h
      rw [← Option.some.inj h, List.drop_zero]
      exact List.isPrefixOf_iff_prefix.mp hp
    · simp only [strstr, hp, Bool.false_eq_true, if_false] at h
      obtain ⟨j, hj, rfl⟩ := Option.map_eq_some_iff.mp h
      exact ih hj

theorem strstr_least {needle s : List UInt8} {k : Nat} (h : strstr needle s = some k) :
    ∀ j < k, ¬needle <+: s.drop j := by
  induction s generalizing k with
  | nil =>
    by_cases hn : needle.isEmpty
    · have hk : k = 0 := by simpa [strstr, hn, eq_comm] using h
      simp [hk]
    · simp [strstr, hn] at h
  | cons c cs ih =>
    by_cases hp : needle.isPrefixOf (c :: cs)
    · simp only [strstr, hp, if_true] at h
      simp [← Option.some.inj h]
    · simp only [strstr, hp, Bool.false_eq_true, if_false] at h
      obtain ⟨k', hk', rfl⟩ := Option.map_eq_some_iff.mp h
      intro j hj
      cases j with
      | zero => exact fun h0 => hp (List.isPrefixOf_iff_prefix.mpr h0)
      | succ j => exact ih hk' j (by omega)

/-- The search finds the first occurrence. -/
theorem strstr_eq {needle s : List UInt8} {k : Nat} (hk : k ≤ s.length) (at_k : needle <+: s.drop k)
    (least : ∀ j < k, ¬needle <+: s.drop j) : strstr needle s = some k := by
  induction s generalizing k with
  | nil =>
    have hk0 : k = 0 := by simpa using hk
    have hn : needle = [] := by simpa using at_k
    simp [strstr, hk0, hn]
  | cons c cs ih =>
    cases k with
    | zero =>
      have hp : needle.isPrefixOf (c :: cs) = true := List.isPrefixOf_iff_prefix.mpr at_k
      rw [strstr, if_pos hp]
    | succ k =>
      have hp : needle.isPrefixOf (c :: cs) = false := by
        rw [Bool.eq_false_iff]
        exact fun h0 => least 0 (by omega) (List.isPrefixOf_iff_prefix.mp h0)
      have hcs := ih (by simpa using hk) at_k fun j hj => least (j + 1) (by omega)
      simp only [strstr, hp, Bool.false_eq_true, if_false, hcs, Option.map_some]

def newline : UInt8 := 10

def nextLine (s : List UInt8) : Option (List UInt8 × List UInt8) :=
  if s.isEmpty then none
  else some (s.takeWhile (· ≠ newline), (s.dropWhile (· ≠ newline)).drop 1)

def linesOf : List UInt8 → List (List UInt8)
  | [] => []
  | c :: cs =>
    if c = newline then [] :: linesOf cs
    else
      match linesOf cs with
      | [] => [[c]]
      | line :: rest => (c :: line) :: rest

theorem linesOf_nextLine (s : List UInt8) :
    linesOf s = match nextLine s with
      | none => []
      | some (line, rest) => line :: linesOf rest := by
  induction s with
  | nil => rfl
  | cons c cs ih =>
    by_cases hc : c = newline
    · simp [linesOf, nextLine, hc]
    · cases cs with
      | nil => simp [linesOf, nextLine, hc]
      | cons d ds =>
        have hn : nextLine (d :: ds) = some ((d :: ds).takeWhile (· ≠ newline),
            ((d :: ds).dropWhile (· ≠ newline)).drop 1) := rfl
        rw [hn] at ih
        dsimp only at ih
        rw [linesOf, if_neg hc, ih]
        simp [nextLine, List.takeWhile_cons, List.dropWhile_cons, hc]

theorem nextLine_lines {s line rest : List UInt8} (h : nextLine s = some (line, rest)) :
    linesOf s = line :: linesOf rest := by
  rw [linesOf_nextLine, h]

def unlines (ls : List (List UInt8)) : List UInt8 := ls.flatMap fun l => l ++ [newline]

@[simp] theorem unlines_cons (l : List UInt8) (ls : List (List UInt8)) :
    unlines (l :: ls) = l ++ newline :: unlines ls := by simp [unlines]

@[simp] theorem unlines_append (ls ls' : List (List UInt8)) :
    unlines (ls ++ ls') = unlines ls ++ unlines ls' := by simp [unlines]

theorem linesOf_line (line : List UInt8) (h : newline ∉ line) (rest : List UInt8) :
    linesOf (line ++ newline :: rest) = line :: linesOf rest := by
  induction line with
  | nil => simp [linesOf]
  | cons c cs ih =>
    simp only [List.mem_cons, not_or] at h
    rw [List.cons_append, linesOf, if_neg (Ne.symm h.1), ih h.2]

theorem linesOf_unlines (ls : List (List UInt8)) (h : ∀ l ∈ ls, newline ∉ l) (rest : List UInt8) :
    linesOf (unlines ls ++ rest) = ls ++ linesOf rest := by
  induction ls with
  | nil => rfl
  | cons l ls ih =>
    rw [unlines_cons, List.append_assoc, List.cons_append, linesOf_line l (h l List.mem_cons_self),
      ih fun l' hl' => h l' (List.mem_cons_of_mem _ hl')]
    rfl

/-- Text that stops at a line end is the lines read from it. -/
theorem unlines_linesOf (s : List UInt8) : unlines (linesOf (s ++ [newline])) = s ++ [newline] := by
  induction s with
  | nil => rfl
  | cons c cs ih =>
    by_cases hc : c = newline
    · rw [List.cons_append, linesOf, if_pos hc, unlines_cons, ih, hc]
      rfl
    · rw [List.cons_append, linesOf, if_neg hc]
      cases hl : linesOf (cs ++ [newline]) with
      | nil => simp [hl, unlines] at ih
      | cons line rest =>
        rw [hl, unlines_cons] at ih
        rw [unlines_cons, List.cons_append, ih]

theorem not_mem_linesOf {s line : List UInt8} (h : line ∈ linesOf s) : newline ∉ line := by
  induction s generalizing line with
  | nil => simp [linesOf] at h
  | cons c cs ih =>
    by_cases hc : c = newline
    · rw [linesOf, if_pos hc] at h
      rcases List.mem_cons.mp h with rfl | h
      · simp
      · exact ih h
    · rw [linesOf, if_neg hc] at h
      cases hl : linesOf cs with
      | nil =>
        rw [hl] at h
        rw [List.mem_singleton.mp h, List.mem_singleton]
        exact Ne.symm hc
      | cons first rest =>
        rw [hl] at h ih
        rcases List.mem_cons.mp h with rfl | h
        · simp only [List.mem_cons, not_or]
          exact ⟨Ne.symm hc, ih List.mem_cons_self⟩
        · exact ih (List.mem_cons_of_mem _ h)

theorem not_mem_intercalate {a c : UInt8} {fields : List (List UInt8)} (ha : c ≠ a)
    (h : ∀ f ∈ fields, c ∉ f) : c ∉ [a].intercalate fields := by
  induction fields with
  | nil => simp
  | cons f fs ih =>
    have hf := h f List.mem_cons_self
    have hfs := ih fun g hg => h g (List.mem_cons_of_mem _ hg)
    cases fs with
    | nil => simpa using hf
    | cons g gs =>
      rw [List.intercalate_cons_cons]
      simp only [List.mem_append, List.mem_singleton, not_or]
      exact ⟨⟨hf, ha⟩, hfs⟩

theorem startsWith_split (pre line : List UInt8) (h : pre.isPrefixOf line = true) :
    line = pre ++ line.drop pre.length := by
  obtain ⟨rest, rfl⟩ := List.isPrefixOf_iff_prefix.mp h
  simp

def hexNibble (c : UInt8) : Option UInt8 :=
  if 48 ≤ c ∧ c ≤ 57 then some (c - 48)
  else if 97 ≤ c ∧ c ≤ 102 then some (c - 97 + 10)
  else none

/-- The bytes `hex_to_bytes` writes before it meets a character that is no digit. -/
def hexBytes : List UInt8 → List UInt8
  | hi :: lo :: rest =>
    match hexNibble hi, hexNibble lo with
    | some h, some l => (h <<< 4 ||| l) :: hexBytes rest
    | _, _ => []
  | _ => []

/-- Whether the text is the hex of `n` bytes, and what a zeroed output holds afterwards. -/
def hexToBytes (n : Nat) (hex : List UInt8) : Bool × Bytes n :=
  if hex.length ≠ n * 2 then (false, zeros n)
  else (decide ((hexBytes hex).length = n), fill n (hexBytes hex))

def int64Max : Nat := 2 ^ 63 - 1

/-- An injected MAC: 64 hex characters over a region, or none. -/
abbrev HexMac := List UInt8 → Option (Bytes 64)

end GateAccess
