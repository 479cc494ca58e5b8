import GateAccess.Traces
import Mathlib.Data.List.Forall2

namespace GateAccess

variable {σ σ' ε ε' ω : Type*} {step : σ → ε → σ} {step' : σ' → ε' → σ'}
  {tell : σ → ε → List ω} {tell' : σ' → ε' → List ω} {R : σ → σ' → Prop} {E : ε → ε' → Prop}

/-- Two machines no one can tell apart by more than what their steps tell: of related states, related
events tell equally much, and when they tell the same they lead to related states. -/
structure Unwinds (step : σ → ε → σ) (step' : σ' → ε' → σ') (tell : σ → ε → List ω)
    (tell' : σ' → ε' → List ω) (R : σ → σ' → Prop) (E : ε → ε' → Prop) : Prop where
  asMuch {s s' e e'} : R s s' → E e e' → (tell s e).length = (tell' s' e').length
  keeps {s s' e e'} : R s s' → E e e' → tell s e = tell' s' e' → R (step s e) (step' s' e')

/-- Runs that told the same have been in step all along. -/
theorem Unwinds.run (h : Unwinds step step' tell tell' R E) {s : σ} {s' : σ'} (start : R s s')
    {es : List ε} {es' : List ε'} (hes : List.Forall₂ E es es')
    (told : logOf step tell s es = logOf step' tell' s' es') (n : ℕ) :
    R (exec step s (es.take n)) (exec step' s' (es'.take n)) := by
  induction hes generalizing s s' n with
  | nil => simpa using start
  | cons he _ ih =>
    obtain ⟨hnow, hlater⟩ := List.append_inj told (h.asMuch start he)
    cases n with
    | zero => exact start
    | succ n => exact ih (h.keeps start he hnow) hlater n

/-- Events in true time are related if they are at the same times. -/
inductive Timed.Alike (E : ε → ε' → Prop) : Timed ε → Timed ε' → Prop
  | wait (ms) : Timed.Alike E (.wait ms) (.wait ms)
  | event {e e'} : E e e' → Timed.Alike E (.event e) (.event e')

def AtTime.Alike (R : σ → σ' → Prop) (s : AtTime σ) (s' : AtTime σ') : Prop :=
  s.uptime = s'.uptime ∧ R s.state s'.state

def timedTell (tell : σ → ε → List ω) (s : AtTime σ) : Timed ε → List ω
  | .wait _ => []
  | .event e => tell s.state e

theorem Unwinds.timed {act : ℕ → σ → ε → σ} {act' : ℕ → σ' → ε' → σ'}
    (h : ∀ uptime, Unwinds (act uptime) (act' uptime) tell tell' R E) :
    Unwinds (timedStep act) (timedStep act') (timedTell tell) (timedTell tell') (AtTime.Alike R)
      (Timed.Alike E) where
  asMuch := by
    rintro s s' e e' ⟨-, hr⟩ (⟨ms⟩ | he)
    · rfl
    · exact (h s.uptime).asMuch hr he
  keeps := by
    rintro ⟨t, s⟩ ⟨_, s'⟩ e e' ⟨rfl, hr⟩ (⟨ms⟩ | he) told
    · exact ⟨rfl, hr⟩
    · exact ⟨rfl, (h t).keeps hr he told⟩

end GateAccess
