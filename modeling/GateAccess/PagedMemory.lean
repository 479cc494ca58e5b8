import GateAccess.CBytes
import Mathlib.Data.List.GetD
import Mathlib.Logic.Function.Basic

namespace GateAccess

abbrev PagedMemory := Nat → UInt8

/-- What a device with pages of this many bytes does with a write: past the last byte of the page it
goes on at the first. -/
def writeFrom (page : Nat) (mem : PagedMemory) (start : Nat) : List UInt8 → PagedMemory
  | [] => mem
  | b :: bs =>
    writeFrom page (Function.update mem start b) (start / page * page + (start + 1) % page) bs

/-- A sequential read: past the last byte of the memory it goes on at the first. -/
def readFrom (size : Nat) (mem : PagedMemory) (start len : Nat) : List UInt8 :=
  (List.range len).map fun i => mem ((start + i) % size)

def block (n : Nat) (mem : PagedMemory) (start : Nat) : Bytes n :=
  ⟨(List.range n).map fun i => mem (start + i), by simp⟩

theorem block_getElem {n : Nat} (mem : PagedMemory) (start : Nat) {i : Nat}
    (h : i < (block n mem start).toList.length) :
    (block n mem start).toList[i] = mem (start + i) := by
  simp [block, List.Vector.toList]

theorem readFrom_eq {size len start : Nat} (mem : PagedMemory) (h : start + len ≤ size) :
    readFrom size mem start len = (block len mem start).toList := by
  refine List.map_congr_left fun i hi => ?_
  rw [Nat.mod_eq_of_lt (by have := List.mem_range.mp hi; omega)]

theorem block_ext {n : Nat} {mem mem' : PagedMemory} {start start' : Nat}
    (h : ∀ i < n, mem (start + i) = mem' (start' + i)) : block n mem start = block n mem' start' := by
  apply List.Vector.toList_injective
  exact List.map_congr_left fun i hi => h i (List.mem_range.mp hi)

/-- Two blocks in a row read as one. -/
theorem block_append (m n : Nat) (mem : PagedMemory) (start : Nat) :
    (block (m + n) mem start).toList =
      (block m mem start).toList ++ (block n mem (start + m)).toList := by
  simp only [block, List.Vector.toList, List.range_add, List.map_append, List.map_map]
  congr 1
  exact List.map_congr_left fun i _ => by simp [Nat.add_assoc]

/-- A write that ends within its page does not wrap. -/
theorem writeFrom_eq {page k : Nat} (data : List UInt8) (mem : PagedMemory) {j : Nat}
    (hfit : j + data.length ≤ page) (a : Nat) :
    writeFrom page mem (page * k + j) data a =
      if page * k + j ≤ a ∧ a < page * k + j + data.length then data.getD (a - (page * k + j)) 0
      else mem a := by
  induction data generalizing mem j with
  | nil =>
    rw [writeFrom, if_neg]
    simp only [List.length_nil]
    omega
  | cons b bs ih =>
    simp only [List.length_cons] at hfit ⊢
    have hdiv : (page * k + j) / page = k := by
      rw [Nat.mul_add_div (by omega), Nat.div_eq_of_lt (by omega), Nat.add_zero]
    cases bs with
    | nil =>
      simp only [writeFrom, List.length_nil]
      by_cases ha : a = page * k + j
      · subst ha
        simp
      · rw [Function.update_of_ne ha, if_neg (by omega)]
    | cons b' bs =>
      simp only [List.length_cons] at hfit ih ⊢
      have hnext : (page * k + j) / page * page + (page * k + j + 1) % page = page * k + (j + 1) := by
        rw [hdiv, Nat.mul_comm k page, Nat.add_assoc, Nat.mul_add_mod, Nat.mod_eq_of_lt (by omega)]
      rw [writeFrom, hnext, ih _ (by omega)]
      by_cases ha : a = page * k + j
      · subst ha
        rw [if_neg (by omega), Function.update_self, if_pos (by omega)]
        simp
      · rw [Function.update_of_ne ha]
        by_cases hin : page * k + (j + 1) ≤ a ∧ a < page * k + (j + 1) + (bs.length + 1)
        · rw [if_pos hin, if_pos (by omega)]
          have hsub : a - (page * k + j) = a - (page * k + (j + 1)) + 1 := by omega
          rw [hsub, List.getD_cons_succ]
        · rw [if_neg hin, if_neg (by omega)]

theorem writeFrom_page {page k : Nat} {data : List UInt8} (mem : PagedMemory)
    (hfit : data.length ≤ page) (a : Nat) :
    writeFrom page mem (page * k) data a =
      if page * k ≤ a ∧ a < page * k + data.length then data.getD (a - page * k) 0 else mem a := by
  have h := @writeFrom_eq page k data mem 0 (by omega) a
  simpa using h

/-- Elsewhere nothing changes. -/
theorem block_write_apart {page k n start : Nat} {data : List UInt8} (mem : PagedMemory)
    (hfit : data.length ≤ page) (hapart : start + n ≤ page * k ∨ page * k + page ≤ start) :
    block n (writeFrom page mem (page * k) data) start = block n mem start := by
  refine block_ext fun i hi => ?_
  rw [writeFrom_page mem hfit, if_neg (by omega)]

/-- A block that starts with the page gets what was written, and keeps the rest. -/
theorem block_write {page k n : Nat} {data : List UInt8} (mem : PagedMemory)
    (hfit : data.length ≤ page) (hn : data.length ≤ n) :
    (block n (writeFrom page mem (page * k) data) (page * k)).toList =
      data ++ (block n mem (page * k)).toList.drop data.length := by
  refine List.ext_getElem (by simp; omega) fun i h _ => ?_
  have hi : i < n := by simpa using h
  rw [block_getElem, writeFrom_page mem hfit]
  by_cases hin : i < data.length
  · rw [if_pos (by omega), List.getElem_append_left hin, Nat.add_sub_cancel_left,
      List.getD_eq_getElem _ _ hin]
  · rw [if_neg (by omega), List.getElem_append_right (by omega), List.getElem_drop, block_getElem]
    congr 1
    omega

end GateAccess
