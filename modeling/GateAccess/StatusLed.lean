import GateAccess.Traces
import GateAccess.WrapClock

namespace GateAccess

def ledBlinkPeriodMs : UInt32 := 30000
def ledBlinkOnMs : UInt32 := 500
def changeFlashMs : UInt32 := 600
def forceHoldMs : UInt32 := 4000
def lvl : UInt8 := 60
def dim : UInt8 := 24

inductive LedColour
  | green
  | red
  | amber
  | blue
  | magenta
  deriving DecidableEq

structure LedInputs where
  online : Bool
  syncStale : Bool
  portalOpen : Bool
  clockTrusted : Bool
  deriving DecidableEq

def ledColour (inputs : LedInputs) : LedColour :=
  if !inputs.clockTrusted then .magenta
  else if inputs.portalOpen then .blue
  else if !inputs.online then .red
  else if inputs.syncStale then .amber
  else .green

def ledIsOn (nowMs : UInt32) : Bool := nowMs % ledBlinkPeriodMs < ledBlinkOnMs

abbrev Rgb := UInt8 × UInt8 × UInt8

def rgbFor : LedColour → Rgb
  | .green => (0, lvl, 0)
  | .red => (lvl, 0, 0)
  | .amber => (lvl, dim, 0)
  | .blue => (0, 0, dim)
  | .magenta => (dim, 0, dim)

/-- The variables of `status_led_rgb.c` behind a strip that came up, with what the strip shows. -/
structure StatusLed where
  pixel : Rgb
  colour : LedColour
  lit : Bool
  valid : Bool
  flashUntilMs : UInt32
  reported : LedColour
  reportedValid : Bool
  forceUntilMs : UInt32
  forceColour : LedColour

/-- After `status_led_init`, whose self-test ends with the strip cleared. -/
def statusLedInit : StatusLed := ⟨(0, 0, 0), .green, false, false, 0, .green, false, 0, .green⟩

def ledShow (s : StatusLed) (c : LedColour) : StatusLed := { s with pixel := rgbFor c }

def ledStripClear (s : StatusLed) : StatusLed := { s with pixel := (0, 0, 0) }

/-- The half of `status_led_tick` that notices a change of colour. -/
def reportColour (s : StatusLed) (want : LedColour) (nowMs : UInt32) : StatusLed :=
  if !s.reportedValid || want ≠ s.reported then
    { s with flashUntilMs := nowMs + changeFlashMs, reported := want, reportedValid := true }
  else s

/-- The strip is written to only on a change. -/
def writeStrip (s : StatusLed) (want : LedColour) (lit : Bool) : StatusLed :=
  if s.valid && want = s.colour && lit = s.lit then s
  else { (if lit then ledShow s want else ledStripClear s) with
    colour := want, lit := lit, valid := true }

/-- The half that decides what to show: a console request outranks the schedule while it lasts. -/
def driveStrip (s : StatusLed) (want : LedColour) (nowMs : UInt32) : StatusLed :=
  if signed (nowMs - s.forceUntilMs) < 0 then writeStrip s s.forceColour true
  else writeStrip s want (ledIsOn nowMs || signed (nowMs - s.flashUntilMs) < 0)

def statusLedTick (s : StatusLed) (inputs : LedInputs) (nowMs : UInt32) : StatusLed :=
  let want := ledColour inputs
  driveStrip (reportColour s want nowMs) want nowMs

def statusLedForce (s : StatusLed) (c : LedColour) (nowMs : UInt32) : StatusLed :=
  let s := ledShow { s with forceColour := c, forceUntilMs := nowMs + forceHoldMs } c
  { s with colour := c, lit := true, valid := true }

inductive LedEvent
  | tick (inputs : LedInputs)
  | force (c : LedColour)

/-- The history in true time that the two deadlines stand for: what the last tick reported, and
when the flash of the last change and the last hold end, zero before the first. -/
structure LedHistory where
  seen : Option LedColour
  flashEnds : Nat
  holdEnds : Nat

def LedHistory.tick (h : LedHistory) (uptime : Nat) (inputs : LedInputs) : LedHistory :=
  if h.seen = some (ledColour inputs) then h
  else { h with seen := some (ledColour inputs), flashEnds := uptime + changeFlashMs.toNat }

def LedHistory.force (h : LedHistory) (uptime : Nat) : LedHistory :=
  { h with holdEnds := uptime + forceHoldMs.toNat }

structure LedState where
  led : StatusLed
  history : LedHistory

def ledAct (uptime : Nat) (s : LedState) : LedEvent → LedState
  | .tick inputs => ⟨statusLedTick s.led inputs (nowMs uptime), s.history.tick uptime inputs⟩
  | .force c => ⟨statusLedForce s.led c (nowMs uptime), s.history.force uptime⟩

def ledRun (es : List (Timed LedEvent)) : AtTime LedState :=
  exec (timedStep ledAct) ⟨0, statusLedInit, ⟨none, 0, 0⟩⟩ es

/-- What the strip shows for a colour, lit or not. -/
def stripShows (s : StatusLed) : Prop := s.pixel = if s.lit then rgbFor s.colour else (0, 0, 0)

structure LedTimed (uptime : Nat) (s : LedState) : Prop where
  shows : s.led.valid = true → stripShows s.led
  seen : s.history.seen = if s.led.reportedValid then some s.led.reported else none
  flash : s.led.flashUntilMs = UInt32.ofNat s.history.flashEnds
  flash_le : s.history.flashEnds ≤ uptime + changeFlashMs.toNat
  hold : s.led.forceUntilMs = UInt32.ofNat s.history.holdEnds
  hold_le : s.history.holdEnds ≤ uptime + forceHoldMs.toNat

/-- The LED a tick leaves behind tells the truth: a hold shows the colour asked for and is always
lit, and outside one the colour is that of the inputs, in the window or after a change. -/
structure TellsTruth (uptime : Nat) (s : LedState) (inputs : LedInputs) : Prop where
  colour : s.led.colour =
    if uptime < s.history.holdEnds then s.led.forceColour else ledColour inputs
  lit : s.led.lit = true ↔ ledIsOn (nowMs uptime) = true ∨ uptime < s.history.flashEnds ∨
    uptime < s.history.holdEnds
  shows : stripShows s.led

/-- Where the two deadlines of a tick still read as past: a lapped hold is noticed unless it shows
what the tick would, a lapped flash unless the LED is lit anyway. -/
def LedInReach (uptime : Nat) (forceColour : LedColour) (h : LedHistory) (inputs : LedInputs) :
    Prop :=
  h.holdEnds ≤ uptime →
    if Lapped h.holdEnds uptime then
      forceColour = ledColour inputs ∧ (ledIsOn (nowMs uptime) = true ∨ uptime < h.flashEnds)
    else Lapped h.flashEnds uptime → ledIsOn (nowMs uptime) = true

theorem writeStrip_eq {s : StatusLed} (shows : s.valid = true → stripShows s) (want : LedColour)
    (lit : Bool) : writeStrip s want lit = { s with
      pixel := if lit then rgbFor want else (0, 0, 0), colour := want, lit := lit, valid := true } := by
  unfold writeStrip
  split
  next hsame =>
    simp only [Bool.and_eq_true, decide_eq_true_eq] at hsame
    obtain ⟨⟨hvalid, rfl⟩, rfl⟩ := hsame
    rw [← shows hvalid, ← hvalid]
  next => cases lit <;> rfl

theorem LedTimed.report {uptime : Nat} {s : LedState} (h : LedTimed uptime s) (inputs : LedInputs) :
    LedTimed uptime ⟨reportColour s.led (ledColour inputs) (nowMs uptime),
      s.history.tick uptime inputs⟩ := by
  have hc : (!s.led.reportedValid || ledColour inputs ≠ s.led.reported) = true ↔
      s.history.seen ≠ some (ledColour inputs) := by
    rw [h.seen]
    cases s.led.reportedValid with
    | false => simp
    | true => simpa using ne_comm
  unfold reportColour LedHistory.tick
  by_cases hsame : s.history.seen = some (ledColour inputs)
  · rw [if_neg (fun hn => hc.mp hn hsame), if_pos hsame]
    exact h
  · rw [if_pos (hc.mpr hsame), if_neg hsame]
    exact
      { shows := by simpa only [stripShows] using h.shows
        seen := rfl
        flash := nowMs_add uptime changeFlashMs
        flash_le := Nat.le_refl (uptime + changeFlashMs.toNat)
        hold := h.hold
        hold_le := h.hold_le }

theorem LedTimed.write {uptime : Nat} {s : LedState} (h : LedTimed uptime s) (want : LedColour)
    (lit : Bool) : LedTimed uptime ⟨writeStrip s.led want lit, s.history⟩ := by
  rw [writeStrip_eq h.shows]
  exact
    { shows := fun _ => rfl
      seen := h.seen
      flash := h.flash
      flash_le := h.flash_le
      hold := h.hold
      hold_le := h.hold_le }

theorem LedTimed.drive {uptime : Nat} {s : LedState} (h : LedTimed uptime s) (want : LedColour) :
    LedTimed uptime ⟨driveStrip s.led want (nowMs uptime), s.history⟩ := by
  unfold driveStrip
  split_ifs
  · exact h.write _ _
  · exact h.write _ _

theorem LedTimed.act {uptime : Nat} {s : LedState} (h : LedTimed uptime s) (e : LedEvent) :
    LedTimed uptime (ledAct uptime s e) := by
  cases e with
  | tick inputs => exact (h.report inputs).drive _
  | force c =>
    exact
      { shows := fun _ => rfl
        seen := h.seen
        flash := h.flash
        flash_le := h.flash_le
        hold := nowMs_add uptime forceHoldMs
        hold_le := Nat.le_refl (uptime + forceHoldMs.toNat) }

theorem ledTimed_run (es : List (Timed LedEvent)) :
    LedTimed (ledRun es).uptime (ledRun es).state := by
  refine timed_invariant (fun t ms s h => ?_) (fun t s e h => h.act e) ?_ es
  · exact { h with
      flash_le := Nat.le_trans h.flash_le (Nat.add_le_add_right (Nat.le_add_right t ms) _)
      hold_le := Nat.le_trans h.hold_le (Nat.add_le_add_right (Nat.le_add_right t ms) _) }
  · exact ⟨by simp [statusLedInit], rfl, rfl, by decide, rfl, by decide⟩

theorem LedTimed.held_iff {uptime : Nat} {s : LedState} (h : LedTimed uptime s) :
    signed (nowMs uptime - s.led.forceUntilMs) < 0 ↔
      uptime < s.history.holdEnds ∨ Lapped s.history.holdEnds uptime := by
  have h4 : forceHoldMs.toNat = 4000 := rfl
  have := h.hold_le
  rw [h.hold, nowMs, signed_neg_iff (by omega)]

theorem LedTimed.flashing_iff {uptime : Nat} {s : LedState} (h : LedTimed uptime s) :
    signed (nowMs uptime - s.led.flashUntilMs) < 0 ↔
      uptime < s.history.flashEnds ∨ Lapped s.history.flashEnds uptime := by
  have h6 : changeFlashMs.toNat = 600 := rfl
  have := h.flash_le
  rw [h.flash, nowMs, signed_neg_iff (by omega)]

theorem LedTimed.truth_iff {uptime : Nat} {s : LedState} (h : LedTimed uptime s)
    (inputs : LedInputs) :
    TellsTruth uptime ⟨driveStrip s.led (ledColour inputs) (nowMs uptime), s.history⟩ inputs ↔
      LedInReach uptime s.led.forceColour s.history inputs := by
  have hheld := h.held_iff
  have hflash := h.flashing_iff
  unfold driveStrip LedInReach
  by_cases hrun : uptime < s.history.holdEnds
  · rw [if_pos (hheld.mpr (Or.inl hrun)), writeStrip_eq h.shows]
    refine ⟨fun _ hle => absurd hrun (Nat.not_lt.mpr hle), fun _ => ⟨?_, ?_, rfl⟩⟩
    · exact (if_pos hrun).symm
    · simp [hrun]
  · have hover : s.history.holdEnds ≤ uptime := Nat.not_lt.mp hrun
    by_cases hlap : Lapped s.history.holdEnds uptime
    · rw [if_pos (hheld.mpr (Or.inr hlap)), writeStrip_eq h.shows]
      simp only [hover, hlap, if_true, true_imp_iff]
      constructor
      · intro truth
        exact ⟨by simpa [hrun] using truth.colour, by simpa [hrun] using truth.lit⟩
      · rintro ⟨hcolour, hlit⟩
        exact ⟨by simpa [hrun] using hcolour, by simpa [hrun] using hlit, rfl⟩
    · rw [if_neg (fun hc => (hheld.mp hc).elim hrun hlap), writeStrip_eq h.shows]
      simp only [hover, hlap, if_false, true_imp_iff]
      constructor
      · intro truth hflashed
        have hlit := truth.lit
        have hpast := Nat.not_lt.mpr hflashed.1
        simpa [hrun, hpast, hflash.mpr (Or.inr hflashed)] using hlit
      · intro hon
        refine ⟨by simp [hrun], ?_, rfl⟩
        simp only [hrun, or_false, Bool.or_eq_true, decide_eq_true_eq, hflash]
        exact ⟨fun hc => hc.elim Or.inl fun hf => hf.elim Or.inr fun hl => Or.inl (hon hl),
          fun hc => hc.elim Or.inl fun hf => Or.inr (Or.inl hf)⟩

@[simp] theorem reportColour_forceColour (s : StatusLed) (want : LedColour) (nowMs : UInt32) :
    (reportColour s want nowMs).forceColour = s.forceColour := by
  unfold reportColour
  split <;> rfl

@[simp] theorem writeStrip_forceColour (s : StatusLed) (want : LedColour) (lit : Bool) :
    (writeStrip s want lit).forceColour = s.forceColour := by
  unfold writeStrip
  split
  · rfl
  · cases lit <;> rfl

@[simp] theorem statusLedTick_forceColour (s : StatusLed) (inputs : LedInputs) (nowMs : UInt32) :
    (statusLedTick s inputs nowMs).forceColour = s.forceColour := by
  rw [statusLedTick, driveStrip]
  split <;> rw [writeStrip_forceColour, reportColour_forceColour]

@[simp] theorem LedHistory.tick_holdEnds (h : LedHistory) (uptime : Nat) (inputs : LedInputs) :
    (h.tick uptime inputs).holdEnds = h.holdEnds := by
  unfold LedHistory.tick
  split <;> rfl

/-- After a tick the LED tells the truth exactly where both deadlines are still in reach. -/
theorem led_truth_iff (es : List (Timed LedEvent)) (inputs : LedInputs) :
    TellsTruth (ledRun es).uptime
        (ledAct (ledRun es).uptime (ledRun es).state (.tick inputs)) inputs ↔
      LedInReach (ledRun es).uptime (ledRun es).state.led.forceColour
        ((ledRun es).state.history.tick (ledRun es).uptime inputs) inputs := by
  have h := ((ledTimed_run es).report inputs).truth_iff inputs
  rw [reportColour_forceColour] at h
  exact h

/-- A gate with no network, ticked once a minute. -/
def offlineMinutes : Nat → List (Timed LedEvent)
  | 0 => []
  | n + 1 => offlineMinutes n ++ [.wait 60000, .event (.tick ⟨false, false, false, true⟩)]

theorem offlineMinutes_run (n : Nat) : (ledRun (offlineMinutes n)).uptime = 60000 * n ∧
    (ledRun (offlineMinutes n)).state.led.forceColour = .green ∧
    (ledRun (offlineMinutes n)).state.history.holdEnds = 0 := by
  induction n with
  | zero => exact ⟨rfl, rfl, rfl⟩
  | succ n ih =>
    obtain ⟨htime, hcolour, hhold⟩ := ih
    have hrun : ledRun (offlineMinutes (n + 1)) = timedStep ledAct (timedStep ledAct
        (ledRun (offlineMinutes n)) (.wait 60000)) (.event (.tick ⟨false, false, false, true⟩)) :=
      exec_append _ _ _ _
    rw [hrun]
    refine ⟨?_, ?_, ?_⟩
    · simp only [timedStep, htime]
      omega
    · simpa [timedStep, ledAct] using hcolour
    · simpa [timedStep, ledAct] using hhold

/-- Nobody ever forced a colour, and on the twenty-fifth day the LED of a gate with no network
turns solid green. -/
theorem led_green_offline : ¬TellsTruth (ledRun (offlineMinutes 35792)).uptime
    (ledAct (ledRun (offlineMinutes 35792)).uptime (ledRun (offlineMinutes 35792)).state
      (.tick ⟨false, false, false, true⟩)) ⟨false, false, false, true⟩ := by
  have hrun := offlineMinutes_run 35792
  have htimed := (ledTimed_run (offlineMinutes 35792)).report ⟨false, false, false, true⟩
  generalize ledRun (offlineMinutes 35792) = r at hrun htimed ⊢
  obtain ⟨htime, hcolour, hhold⟩ := hrun
  intro truth
  have reach := (htimed.truth_iff _).mp truth
  have lapped : Lapped 0 r.uptime := ⟨Nat.zero_le _, by omega⟩
  unfold LedInReach at reach
  rw [reportColour_forceColour, LedHistory.tick_holdEnds, hcolour, hhold, if_pos lapped] at reach
  exact absurd (reach (Nat.zero_le _)).1 (by decide)

end GateAccess
