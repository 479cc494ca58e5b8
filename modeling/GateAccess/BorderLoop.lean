import GateAccess.OledScreens
import GateAccess.Traces

namespace GateAccess

/-- `borderUntilMs` is the firmware's. `due` is what it stands for: the true time at which the
border last asked for ends, zero before the first. -/
structure BorderState where
  borderUntilMs : UInt32
  due : Nat

def gateAppShowBorder (uptime : Nat) (_s : BorderState) (durationMs : UInt32) : BorderState where
  borderUntilMs := nowMs uptime + durationMs
  due := uptime + durationMs.toNat

def borderRun (calls : List (Timed UInt32)) : AtTime BorderState :=
  exec (timedStep gateAppShowBorder) ⟨0, ⟨0, 0⟩⟩ calls

def borderFrame (fb : OledFb) : OledFb := oledFbBorder (oledFbClear fb)

/-- What the main loop draws, and whether it wants the panel on. -/
def loopFrame (borderUntilMs : UInt32) (now : UiNow) (fb : OledFb) (r : UiRender) : OledFb × Bool :=
  if signed (borderUntilMs - now.ms) > 0 then (borderFrame fb, true)
  else (oledCompose fb r, r.panelOn)

/-- The border exactly while one is due, the guest's screen otherwise. -/
def dueFrame (b : AtTime BorderState) (fb : OledFb) (r : UiRender) : OledFb × Bool :=
  if b.uptime < b.state.due then (borderFrame fb, true) else (oledCompose fb r, r.panelOn)

/-- The end of the last border is less than half the counter ahead, or not in the half of a lap
behind that reads as ahead. -/
def BorderInReach (b : AtTime BorderState) : Prop :=
  (b.uptime < b.state.due → b.state.due - b.uptime < 2 ^ 31) ∧
    (b.state.due ≤ b.uptime → (b.uptime - b.state.due) % 2 ^ 32 ≤ 2 ^ 31)

structure BorderTimed (uptime : Nat) (s : BorderState) : Prop where
  until_due : s.borderUntilMs = UInt32.ofNat s.due
  due_lt : s.due < uptime + 2 ^ 32

theorem borderTimed_run (calls : List (Timed UInt32)) :
    BorderTimed (borderRun calls).uptime (borderRun calls).state := by
  refine timed_invariant (fun t ms s h => ⟨h.until_due, ?_⟩) (fun t s durationMs _ => ⟨?_, ?_⟩)
    ⟨rfl, by decide⟩ calls
  · have := h.due_lt
    omega
  · simp [gateAppShowBorder, nowMs]
  · exact Nat.add_lt_add_left durationMs.toNat_lt t

theorem loopFrame_border_iff {b : AtTime BorderState} (h : BorderTimed b.uptime b.state) :
    signed (b.state.borderUntilMs - nowMs b.uptime) > 0 ↔
      (b.uptime < b.state.due ∧ b.state.due - b.uptime < 2 ^ 31) ∨
        (b.state.due ≤ b.uptime ∧ 2 ^ 31 < (b.uptime - b.state.due) % 2 ^ 32) := by
  rw [h.until_due, nowMs, gt_iff_lt, signed_pos_iff h.due_lt]

theorem border_frame_ne (fb : OledFb) (r : UiRender) :
    (borderFrame fb, true) ≠ (oledCompose fb r, r.panelOn) :=
  fun h => border_ne_oledCompose fb fb r (congrArg Prod.fst h)

/-- The border is drawn exactly while one is due, as long as the counter can tell. -/
theorem border_drawn_iff (calls : List (Timed UInt32)) (epoch : Int) (fb : OledFb) (r : UiRender) :
    loopFrame (borderRun calls).state.borderUntilMs ⟨nowMs (borderRun calls).uptime, epoch⟩ fb r =
        dueFrame (borderRun calls) fb r ↔
      BorderInReach (borderRun calls) := by
  have hread := loopFrame_border_iff (borderTimed_run calls)
  generalize borderRun calls = b at hread ⊢
  unfold loopFrame dueFrame BorderInReach
  by_cases hdue : b.uptime < b.state.due
  · by_cases hnear : b.state.due - b.uptime < 2 ^ 31
    · rw [if_pos (hread.mpr (Or.inl ⟨hdue, hnear⟩)), if_pos hdue]
      simp only [true_iff]
      omega
    · rw [if_neg (fun h => by have := hread.mp h; omega), if_pos hdue]
      simp only [(border_frame_ne fb r).symm, false_iff]
      omega
  · by_cases hlap : 2 ^ 31 < (b.uptime - b.state.due) % 2 ^ 32
    · rw [if_pos (hread.mpr (Or.inr ⟨Nat.not_lt.mp hdue, hlap⟩)), if_neg hdue]
      simp only [border_frame_ne fb r, false_iff]
      omega
    · rw [if_neg (fun h => by have := hread.mp h; omega), if_neg hdue]
      simp only [true_iff]
      omega

/-- No border was ever asked for, and after 2^31 ms the loop draws one. -/
theorem border_drawn_unasked :
    loopFrame (borderRun [.wait (2 ^ 31 + 1)]).state.borderUntilMs
        ⟨nowMs (borderRun [.wait (2 ^ 31 + 1)]).uptime, 0⟩ ⟨fun _ => 0⟩
        ⟨.idle, 0, 0, 5, 0, false⟩ = (borderFrame ⟨fun _ => 0⟩, true) := by
  rfl

end GateAccess
