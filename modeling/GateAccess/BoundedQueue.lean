import Mathlib.Data.List.Basic

namespace GateAccess

/-- A queue between two tasks. The lists of what has been sent, taken out and turned away are kept for
the reader alone. -/
structure BoundedQueue (α : Type*) where
  waiting : List α
  sent : List α
  received : List α
  refused : List α

namespace BoundedQueue

variable {α : Type*}

def empty : BoundedQueue α := ⟨[], [], [], []⟩

/-- A send that does not wait for room. -/
def send (cap : Nat) (q : BoundedQueue α) (x : α) : BoundedQueue α :=
  if q.waiting.length < cap then { q with waiting := q.waiting ++ [x], sent := q.sent ++ [x] }
  else { q with sent := q.sent ++ [x], refused := q.refused ++ [x] }

def receive (q : BoundedQueue α) : BoundedQueue α :=
  match q.waiting with
  | [] => q
  | x :: rest => { q with waiting := rest, received := q.received ++ [x] }

structure Sound (cap : Nat) (q : BoundedQueue α) : Prop where
  bounded : q.waiting.length ≤ cap
  inOrder : (q.received ++ q.waiting).Sublist q.sent
  counted : q.received.length + q.waiting.length + q.refused.length = q.sent.length

/-- What has happened to a queue since it was last seen empty. -/
structure EmptySince (cap : Nat) (q₀ q : BoundedQueue α) : Prop where
  waiting : q₀.sent.length + q.waiting.length ≤ q.sent.length
  refused : q.sent.length ≤ q₀.sent.length + cap → q.refused = q₀.refused

variable {cap : Nat} {q q₀ : BoundedQueue α}

theorem receive_nil (h : q.waiting = []) : q.receive = q := by
  simp [receive, h]

theorem receive_cons {x : α} {rest : List α} (h : q.waiting = x :: rest) :
    q.receive = { q with waiting := rest, received := q.received ++ [x] } := by
  simp [receive, h]

theorem receive_sent (q : BoundedQueue α) : q.receive.sent = q.sent := by
  cases h : q.waiting with
  | nil => rw [receive_nil h]
  | cons x rest => rw [receive_cons h]

theorem receive_refused (q : BoundedQueue α) : q.receive.refused = q.refused := by
  cases h : q.waiting with
  | nil => rw [receive_nil h]
  | cons x rest => rw [receive_cons h]

theorem refused_send (cap : Nat) (q : BoundedQueue α) (x : α) : q.refused <+: (q.send cap x).refused := by
  unfold BoundedQueue.send
  split
  next => exact List.prefix_rfl
  next => exact List.prefix_append _ _

theorem Sound.empty : Sound cap (empty : BoundedQueue α) := ⟨Nat.zero_le cap, .slnil, rfl⟩

theorem Sound.send (h : Sound cap q) (x : α) : Sound cap (q.send cap x) := by
  have hcount := h.counted
  unfold BoundedQueue.send
  split
  next hroom =>
    refine ⟨by simp; omega, ?_, by simp; omega⟩
    rw [← List.append_assoc]
    exact h.inOrder.append (.refl [x])
  next =>
    exact ⟨h.bounded, h.inOrder.trans (List.sublist_append_left _ _), by simp; omega⟩

theorem Sound.receive (h : Sound cap q) : Sound cap q.receive := by
  cases hwaiting : q.waiting with
  | nil => rwa [receive_nil hwaiting]
  | cons x rest =>
    obtain ⟨hbounded, hinOrder, hcounted⟩ := h
    rw [hwaiting, List.length_cons] at hbounded hcounted
    rw [hwaiting] at hinOrder
    rw [receive_cons hwaiting]
    exact ⟨by dsimp only; omega, by simpa using hinOrder, by simp; omega⟩

/-- Nothing turned away: what came out and what waits is what was sent, in order. -/
theorem Sound.whole (h : Sound cap q) (hnone : q.refused = []) : q.received ++ q.waiting = q.sent := by
  have hcount := h.counted
  rw [hnone, List.length_nil] at hcount
  exact h.inOrder.eq_of_length (by rw [List.length_append]; omega)

theorem EmptySince.start (h : q.waiting = []) : EmptySince cap q q :=
  ⟨by rw [h, List.length_nil]; omega, fun _ => rfl⟩

/-- A send is refused only when as many came before it as there is room for. -/
theorem EmptySince.send (h : EmptySince cap q₀ q) (x : α) : EmptySince cap q₀ (q.send cap x) := by
  have hwaiting := h.waiting
  unfold BoundedQueue.send
  split
  next =>
    refine ⟨by simp; omega, fun hfew => h.refused ?_⟩
    rw [List.length_append, List.length_singleton] at hfew
    omega
  next hfull =>
    refine ⟨by simp; omega, fun hfew => ?_⟩
    rw [List.length_append, List.length_singleton] at hfew
    omega

theorem EmptySince.receive (h : EmptySince cap q₀ q) : EmptySince cap q₀ q.receive := by
  have hwaiting := h.waiting
  refine ⟨?_, fun hfew => ?_⟩
  · rw [receive_sent]
    cases hq : q.waiting with
    | nil => rwa [receive_nil hq]
    | cons x rest =>
      rw [hq, List.length_cons] at hwaiting
      rw [receive_cons hq]
      dsimp only
      omega
  · rw [receive_refused]
    exact h.refused (by rwa [receive_sent] at hfew)

end BoundedQueue

end GateAccess
