import Mathlib.Data.List.Basic
import Mathlib.Data.List.Induction

namespace GateAccess

variable {σ ε ω : Type*} (step : σ → ε → σ)

def exec (s : σ) (es : List ε) : σ := es.foldl step s

def trace : σ → List ε → List (σ × ε)
  | _, [] => []
  | s, e :: es => (s, e) :: trace (step s e) es

/-- What an observer of the run sees: each step's observations, in order. -/
def logOf (obs : σ → ε → List ω) : σ → List ε → List ω
  | _, [] => []
  | s, e :: es => obs s e ++ logOf obs (step s e) es

@[simp] theorem exec_nil (s : σ) : exec step s [] = s := rfl

@[simp] theorem exec_cons (s : σ) (e : ε) (es : List ε) :
    exec step s (e :: es) = exec step (step s e) es := rfl

theorem exec_append (s : σ) (es fs : List ε) :
    exec step s (es ++ fs) = exec step (exec step s es) fs := List.foldl_append

/-- A run resumes from the state after any of its steps. -/
theorem exec_split (s : σ) (before after : List ε) (e : ε) :
    exec step s (before ++ e :: after) = exec step (exec step s (before ++ [e])) after := by
  rw [List.append_cons, exec_append]

@[simp] theorem trace_nil (s : σ) : trace step s [] = [] := rfl

@[simp] theorem trace_cons (s : σ) (e : ε) (es : List ε) :
    trace step s (e :: es) = (s, e) :: trace step (step s e) es := rfl

theorem trace_append (s : σ) (es fs : List ε) :
    trace step s (es ++ fs) = trace step s es ++ trace step (exec step s es) fs := by
  induction es generalizing s with
  | nil => rfl
  | cons e es ih => simp [ih]

theorem trace_concat (s : σ) (es : List ε) (e : ε) :
    trace step s (es ++ [e]) = trace step s es ++ [(exec step s es, e)] := trace_append step s es [e]

theorem exec_concat (s : σ) (es : List ε) (e : ε) :
    exec step s (es ++ [e]) = step (exec step s es) e := exec_append step s es [e]

@[simp] theorem trace_map_snd (s : σ) (es : List ε) : (trace step s es).map Prod.snd = es := by
  induction es generalizing s with
  | nil => rfl
  | cons e es ih => simp [ih]

theorem logOf_append (obs : σ → ε → List ω) (s : σ) (es fs : List ε) :
    logOf step obs s (es ++ fs) = logOf step obs s es ++ logOf step obs (exec step s es) fs := by
  induction es generalizing s with
  | nil => rfl
  | cons e es ih => simp [logOf, ih]

theorem logOf_map {ω' : Type*} (obs : σ → ε → List ω) (f : ω → ω') (s : σ) (es : List ε) :
    logOf step (fun s e => (obs s e).map f) s es = (logOf step obs s es).map f := by
  induction es generalizing s with
  | nil => rfl
  | cons e es ih => simp [logOf, ih]

variable {step}

theorem mem_trace {s t : σ} {e : ε} {es : List ε} (h : (t, e) ∈ trace step s es) :
    ∃ before after, es = before ++ e :: after ∧ t = exec step s before := by
  induction es generalizing s with
  | nil => simp at h
  | cons f es ih =>
    rcases List.mem_cons.mp h with he | ht
    · obtain ⟨rfl, rfl⟩ := Prod.mk.inj he
      exact ⟨[], es, rfl, rfl⟩
    · obtain ⟨before, after, hes, ht'⟩ := ih ht
      exact ⟨f :: before, after, by rw [hes]; rfl, ht'⟩

/-- The steps of a run are steps of every run that extends it. -/
theorem mem_trace_append {s : σ} {es : List ε} {p : σ × ε} (h : p ∈ trace step s es)
    (fs : List ε) : p ∈ trace step s (es ++ fs) := by
  rw [trace_append]
  exact List.mem_append_left _ h

theorem trace_mem_split {s : σ} {e : ε} {before after : List ε} :
    (exec step s before, e) ∈ trace step s (before ++ e :: after) := by
  rw [trace_append]
  exact List.mem_append_right _ List.mem_cons_self

/-- What every step of this run preserves holds at its end. -/
theorem exec_induction {I : σ → Prop} {s : σ} {es : List ε}
    (keep : ∀ p ∈ trace step s es, I p.1 → I (step p.1 p.2)) (start : I s) :
    I (exec step s es) := by
  induction es generalizing s with
  | nil => exact start
  | cons e es ih =>
    apply ih
    · intro p hp
      exact keep p (List.mem_cons_of_mem _ hp)
    · exact keep (s, e) List.mem_cons_self start

theorem exec_invariant {I : σ → Prop} (keep : ∀ s e, I s → I (step s e)) {s : σ} (start : I s)
    (es : List ε) : I (exec step s es) :=
  exec_induction (fun p _ => keep p.1 p.2) start

/-- A property holds in every state of a run exactly when every step meets a condition that keeps
an invariant behind it, and that no step can do without. -/
theorem always_iff_steps {I P : σ → Prop} {Q : σ × ε → Prop} {s : σ} {es : List ε} (start : I s)
    (good : ∀ t, I t → P t) (keep : ∀ t e, I t → Q (t, e) → I (step t e))
    (needed : ∀ before e, P (step (exec step s before) e) → Q (exec step s before, e)) :
    (∀ before after, es = before ++ after → P (exec step s before)) ↔
      ∀ p ∈ trace step s es, Q p := by
  constructor
  · rintro always ⟨t, e⟩ hp
    obtain ⟨before, after, rfl, rfl⟩ := mem_trace hp
    have hafter := always (before ++ [e]) after (by simp)
    rw [exec_concat] at hafter
    exact needed before e hafter
  · rintro steps before after rfl
    have kept : I (exec step s before) :=
      exec_induction (fun p hp h => keep p.1 p.2 h (steps p (mem_trace_append hp after))) start
    exact good _ kept

/-- A run in true time: time passes, or something happens at the present time. -/
inductive Timed (ε : Type*)
  | wait (ms : Nat)
  | event (e : ε)

structure AtTime (σ : Type*) where
  uptime : Nat
  state : σ

def timedStep (act : Nat → σ → ε → σ) (s : AtTime σ) : Timed ε → AtTime σ
  | .wait ms => { s with uptime := s.uptime + ms }
  | .event e => { s with state := act s.uptime s.state e }

/-- What no event breaks and no passing of time outdates holds throughout a run. -/
theorem timed_invariant {act : Nat → σ → ε → σ} {I : Nat → σ → Prop}
    (later : ∀ t ms s, I t s → I (t + ms) s) (keep : ∀ t s e, I t s → I t (act t s e))
    {s : AtTime σ} (start : I s.uptime s.state) (es : List (Timed ε)) :
    I (exec (timedStep act) s es).uptime (exec (timedStep act) s es).state := by
  refine exec_invariant (I := fun s : AtTime σ => I s.uptime s.state) (fun s e h => ?_) start es
  cases e with
  | wait ms => exact later _ ms _ h
  | event e => exact keep _ _ e h

theorem uptime_le_exec {act : Nat → σ → ε → σ} (s : AtTime σ) (es : List (Timed ε)) :
    s.uptime ≤ (exec (timedStep act) s es).uptime := by
  refine exec_invariant (I := fun t : AtTime σ => s.uptime ≤ t.uptime) (fun t e h => ?_) (Nat.le_refl _) es
  cases e with
  | wait ms => exact Nat.le_trans h (Nat.le_add_right t.uptime ms)
  | event e => exact h

theorem mem_logOf {obs : σ → ε → List ω} {s : σ} {es : List ε} {w : ω}
    (h : w ∈ logOf step obs s es) : ∃ p ∈ trace step s es, w ∈ obs p.1 p.2 := by
  induction es generalizing s with
  | nil => simp [logOf] at h
  | cons e es ih =>
    rcases List.mem_append.mp h with h | h
    · exact ⟨(s, e), List.mem_cons_self, h⟩
    · obtain ⟨p, hp, hw⟩ := ih h
      exact ⟨p, List.mem_cons_of_mem _ hp, hw⟩

end GateAccess
