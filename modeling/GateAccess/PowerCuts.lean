import GateAccess.CBytes
import GateAccess.Traces

namespace GateAccess

/-- What a write leaves behind: all of it, or its first bytes over the old ones. -/
def cutWrite {n : Nat} (old new : Bytes n) : Option Nat → Bytes n
  | none => new
  | some k => ⟨new.toList.take k ++ old.toList.drop k, by simp; omega⟩

/-- A save that completes, or is cut after some bytes. -/
structure Save (α : Type*) where
  value : α
  cut : Option Nat
  deriving DecidableEq

variable {α β σ : Type*}

def Save.completed (s : Save α) : Option α := if s.cut = none then some s.value else none

def lastDone (saves : List (Save α)) : Option α := (saves.filterMap Save.completed).getLast?

theorem lastDone_concat_done (saves : List (Save α)) (v : α) :
    lastDone (saves ++ [⟨v, none⟩]) = some v := by
  simp [lastDone, Save.completed]

theorem lastDone_concat_cut (saves : List (Save α)) (v : α) (k : Nat) :
    lastDone (saves ++ [⟨v, some k⟩]) = lastDone saves := by
  simp [lastDone, Save.completed]

variable {step : σ → Save α → σ} {view : α → β}

/-- Where a completed save is read back and a cut one changes nothing, a run reads as its last
completed save. -/
theorem read_exec (read : σ → Option β) {s : σ} {saves : List (Save α)}
    (done : ∀ p ∈ trace step s saves, p.2.cut = none → read (step p.1 p.2) = some (view p.2.value))
    (kept : ∀ p ∈ trace step s saves, ∀ k, p.2.cut = some k → read (step p.1 p.2) = read p.1) :
    read (exec step s saves) = ((lastDone saves).map view).or (read s) := by
  induction saves using List.reverseRecOn with
  | nil => simp [lastDone]
  | append_singleton saves save ih =>
    simp only [trace_concat, List.mem_append, List.mem_singleton] at done kept
    have hrun := ih (fun p hp => done p (.inl hp)) fun p hp => kept p (.inl hp)
    rw [exec_concat]
    obtain ⟨v, cut⟩ := save
    cases cut with
    | none =>
      rw [lastDone_concat_done]
      exact done _ (.inr rfl) rfl
    | some k =>
      rw [lastDone_concat_cut, ← hrun]
      exact kept _ (.inr rfl) k rfl

end GateAccess
