import Mathlib.Data.List.Basic
import Mathlib.Data.List.Induction
import Mathlib.Order.Lattice

namespace GateAccess

variable {β κ : Type*} [LinearOrder κ] (key : β → κ)

/-- One step of a scan that replaces its best entry only by a strictly larger one. -/
def firstMaxStep (best : Option β) (x : β) : Option β :=
  match best with
  | none => some x
  | some b => if key x > key b then some x else some b

def firstMax (xs : List β) : Option β := xs.foldl (firstMaxStep key) none

variable {key}

theorem firstMax_concat (xs : List β) (x : β) :
    firstMax key (xs ++ [x]) = firstMaxStep key (firstMax key xs) x := by
  simp [firstMax, List.foldl_append]

theorem firstMax_none {xs : List β} : firstMax key xs = none ↔ xs = [] := by
  induction xs using List.reverseRecOn with
  | nil => simp [firstMax]
  | append_singleton xs x ih =>
    rw [firstMax_concat]
    cases firstMax key xs with
    | none => simp [firstMaxStep]
    | some b =>
      simp only [firstMaxStep]
      split <;> simp

theorem firstMax_some {xs : List β} {b : β} :
    firstMax key xs = some b → ∃ before after, xs = before ++ b :: after ∧
      (∀ x ∈ before, key x < key b) ∧ ∀ x ∈ after, key x ≤ key b := by
  induction xs using List.reverseRecOn generalizing b with
  | nil => simp [firstMax]
  | append_singleton xs x ih =>
    rw [firstMax_concat]
    cases hbest : firstMax key xs with
    | none =>
      rintro ⟨⟩
      exact ⟨[], [], by rw [firstMax_none.mp hbest], by simp, by simp⟩
    | some c =>
      obtain ⟨before, after, hxs, hbefore, hafter⟩ := ih hbest
      simp only [firstMaxStep]
      split
      next hx =>
        rintro ⟨⟩
        refine ⟨xs, [], rfl, fun y hy => ?_, by simp⟩
        rw [hxs, List.mem_append, List.mem_cons] at hy
        rcases hy with hy | rfl | hy
        · exact (hbefore y hy).trans hx
        · exact hx
        · exact (hafter y hy).trans_lt hx
      next hx =>
        rintro ⟨⟩
        refine ⟨before, after ++ [x], by simp [hxs], hbefore, fun y hy => ?_⟩
        rcases List.mem_append.mp hy with hy | hy
        · exact hafter y hy
        · rw [List.mem_singleton.mp hy]
          exact not_lt.mp hx

theorem firstMax_le {xs : List β} {b x : β} (h : firstMax key xs = some b) (hx : x ∈ xs) :
    key x ≤ key b := by
  obtain ⟨before, after, rfl, hbefore, hafter⟩ := firstMax_some h
  rw [List.mem_append, List.mem_cons] at hx
  rcases hx with hx | rfl | hx
  · exact (hbefore x hx).le
  · exact le_rfl
  · exact hafter x hx

theorem firstMax_mem {xs : List β} {b : β} (h : firstMax key xs = some b) : b ∈ xs := by
  obtain ⟨before, after, rfl, -, -⟩ := firstMax_some h
  simp

theorem firstMax_append_cons {before after : List β} {b : β} (hbefore : ∀ x ∈ before, key x < key b)
    (hafter : ∀ x ∈ after, key x ≤ key b) : firstMax key (before ++ b :: after) = some b := by
  induction after using List.reverseRecOn with
  | nil =>
    rw [firstMax_concat]
    cases hbest : firstMax key before with
    | none => rfl
    | some c => simp [firstMaxStep, hbefore c (firstMax_mem hbest)]
  | append_singleton after x ih =>
    rw [← List.cons_append, ← List.append_assoc, firstMax_concat,
      ih fun y hy => hafter y (List.mem_append_left _ hy)]
    have hx : ¬key b < key x := not_lt.mpr (hafter x (by simp))
    simp [firstMaxStep, hx]

/-- An entry larger than every other is the one found. -/
theorem firstMax_of_max {xs : List β} {b : β} (hb : b ∈ xs)
    (hmax : ∀ x ∈ xs, x ≠ b → key x < key b) : firstMax key xs = some b := by
  obtain ⟨before, after, rfl, hnot⟩ := List.eq_append_cons_of_mem hb
  refine firstMax_append_cons (fun x hx => hmax x (List.mem_append_left _ hx) ?_) fun x hx => ?_
  · rintro rfl
    exact hnot hx
  · by_cases hxb : x = b
    · rw [hxb]
    · exact (hmax x (List.mem_append_right _ (List.mem_cons_of_mem _ hx)) hxb).le

/-- Dropping entries other than the one found does not change it. -/
theorem firstMax_filter {xs : List β} {b : β} {p : β → Bool} (h : firstMax key xs = some b)
    (hb : p b = true) : firstMax key (xs.filter p) = some b := by
  obtain ⟨before, after, rfl, hbefore, hafter⟩ := firstMax_some h
  rw [List.filter_append, List.filter_cons_of_pos hb]
  exact firstMax_append_cons (fun x hx => hbefore x (List.mem_of_mem_filter hx))
    fun x hx => hafter x (List.mem_of_mem_filter hx)

end GateAccess
