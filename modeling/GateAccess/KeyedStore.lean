import Mathlib.Data.List.Basic
import Mathlib.Logic.Function.Basic

namespace GateAccess

variable {κ α : Type*}

/-- What a keyed store is for: at most one item under a key. -/
abbrev Store (κ α : Type*) := κ → Option α

def Store.empty : Store κ α := fun _ => none

section

variable [DecidableEq κ] (key : α → κ)

def Store.put (m : Store κ α) (a : α) : Store κ α := Function.update m (key a) (some a)

def Store.load (m : Store κ α) (as : List α) : Store κ α := as.foldl (Store.put key) m

def lastOf (as : List α) (k : κ) : Option α := as.reverse.find? (key · = k)

theorem lastOf_cons (a : α) (as : List α) (k : κ) :
    lastOf key (a :: as) k = (lastOf key as k).or (if key a = k then some a else none) := by
  simp only [lastOf, List.reverse_cons, List.find?_append]
  by_cases hk : key a = k <;> simp [hk]

variable {key}

theorem lastOf_some {as : List α} {k : κ} {a : α} (h : lastOf key as k = some a) :
    a ∈ as ∧ key a = k :=
  ⟨List.mem_reverse.mp (List.mem_of_find?_eq_some h), by simpa using List.find?_some h⟩

theorem lastOf_none {as : List α} {k : κ} (h : lastOf key as k = none) :
    ∀ a ∈ as, key a ≠ k := by
  intro a ha
  simpa using List.find?_eq_none.mp h a (List.mem_reverse.mpr ha)

theorem Store.put_apply (m : Store κ α) (a : α) (k : κ) :
    Store.put key m a k = if key a = k then some a else m k := by
  by_cases hk : key a = k
  · simp [Store.put, hk]
  · simp [Store.put, hk, Ne.symm hk]

/-- Loading a list leaves the last item under each key, and what was there under the others. -/
theorem Store.load_apply (m : Store κ α) (as : List α) (k : κ) :
    Store.load key m as k = (lastOf key as k).or (m k) := by
  induction as generalizing m with
  | nil => rfl
  | cons a as ih =>
    change Store.load key (Store.put key m a) as k = _
    rw [ih, lastOf_cons, Option.or_assoc, Store.put_apply]
    by_cases hk : key a = k <;> simp [hk]

theorem Store.load_empty (as : List α) (k : κ) : Store.load key .empty as k = lastOf key as k := by
  rw [Store.load_apply, Store.empty, Option.or_none]

end

end GateAccess
