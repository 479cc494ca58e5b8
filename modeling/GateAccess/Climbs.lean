import GateAccess.Traces
import Mathlib.Order.Basic

namespace GateAccess

/-- The keys a guard takes while it moves from `a` to `b`, each related to the one held. -/
inductive Climb {κ : Type*} (r : κ → κ → Prop) : κ → List κ → κ → Prop
  | stay {a} : Climb r a [] a
  | take {a k ks b} : r a k → Climb r k ks b → Climb r a (k :: ks) b

variable {κ σ ε : Type*} {r : κ → κ → Prop}

theorem Climb.append {a b c : κ} {ks ls : List κ} (h : Climb r a ks b) (h' : Climb r b ls c) :
    Climb r a (ks ++ ls) c := by
  induction h with
  | stay => exact h'
  | take hr _ ih => exact .take hr (ih h')

theorem Climb.related [IsTrans κ r] {a b : κ} {ks : List κ} (h : Climb r a ks b) :
    ∀ k ∈ ks, r a k := by
  induction h with
  | stay => simp
  | take hr _ ih =>
    intro x hx
    rcases List.mem_cons.mp hx with rfl | hx
    · exact hr
    · exact IsTrans.trans _ _ _ hr (ih x hx)

theorem Climb.pairwise [IsTrans κ r] {a b : κ} {ks : List κ} (h : Climb r a ks b) :
    ks.Pairwise r := by
  induction h with
  | stay => exact List.Pairwise.nil
  | take _ ht ih => exact List.pairwise_cons.mpr ⟨ht.related, ih⟩

theorem Climb.start_le [Preorder κ] (hr : ∀ x y, r x y → x ≤ y) {a b : κ} {ks : List κ}
    (h : Climb r a ks b) : a ≤ b := by
  induction h with
  | stay => exact le_rfl
  | take hk _ ih => exact (hr _ _ hk).trans ih

theorem climb_logOf {step : σ → ε → σ} (key : σ → κ) {obs : σ → ε → List κ} {s : σ} {es : List ε}
    (climbs : ∀ p ∈ trace step s es, Climb r (key p.1) (obs p.1 p.2) (key (step p.1 p.2))) :
    Climb r (key s) (logOf step obs s es) (key (exec step s es)) := by
  induction es generalizing s with
  | nil => exact .stay
  | cons e es ih =>
    exact (climbs (s, e) List.mem_cons_self).append
      (ih fun p hp => climbs p (List.mem_cons_of_mem _ hp))

end GateAccess
