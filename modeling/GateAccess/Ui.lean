import GateAccess.AccessCore
import GateAccess.WrapClock

namespace GateAccess

abbrev uiCodeLen : Nat := acCodeLen
def uiEntryTimeoutMs : UInt32 := 10000
def uiGrantedMs : UInt32 := 3000
def uiDeniedMs : UInt32 := 2000
def uiInfoMs : UInt32 := 3000

structure UiNow where
  ms : UInt32
  epoch : Int
  deriving DecidableEq

inductive UiScreen
  | idle
  | entry
  | granted
  | denied
  | notYet
  | expired
  | lockout
  | noClock
  deriving DecidableEq

structure UiRender where
  screen : UiScreen
  progressPermille : UInt16
  attemptsUsed : UInt8
  attemptsMax : UInt8
  secondsRemaining : UInt32
  panelOn : Bool
  deriving DecidableEq

inductive UiAction
  | none
  | submit
  | clearBuffer
  deriving DecidableEq

structure UiCtx where
  screen : UiScreen
  entryLen : UInt8
  entryDeadlineMs : UInt32
  screenUntilMs : UInt32
  clockTrusted : Bool
  deriving DecidableEq

def permilleRemainingMs (nowMs deadlineMs spanMs : UInt32) : UInt16 :=
  if spanMs = 0 ∨ signed (deadlineMs - nowMs) ≤ 0 then 0
  else
    let remaining := deadlineMs - nowMs
    if remaining ≥ spanMs then 1000 else (remaining * 1000 / spanMs).toUInt16

def permilleRemainingS (now deadline spanS : Int) : UInt16 :=
  if spanS ≤ 0 ∨ deadline ≤ now then 0
  else
    let remaining := deadline - now
    if remaining ≥ spanS then 1000 else UInt16.ofInt (remaining * 1000 / spanS)

def goIdle (ctx : UiCtx) : UiCtx :=
  { ctx with screen := .idle, entryLen := 0, entryDeadlineMs := 0, screenUntilMs := 0 }

def uiInit : UiCtx where
  screen := .idle
  entryLen := 0
  entryDeadlineMs := 0
  screenUntilMs := 0
  clockTrusted := false

def uiSetClockTrusted (ctx : UiCtx) (trusted : Bool) : UiCtx :=
  let ctx := { ctx with clockTrusted := trusted }
  if !trusted then goIdle ctx else ctx

def uiOnKey (ctx : UiCtx) (ac : AcCtx) (now : UiNow) : UiCtx × UiAction :=
  if !ctx.clockTrusted then
    ({ ctx with entryLen := 0, screen := .noClock, screenUntilMs := now.ms + uiInfoMs }, .none)
  else if acIsLockedOut ac now.epoch then (ctx, .none)
  else
    let ctx := if ctx.screen ≠ .entry then { ctx with entryLen := 0, screen := .entry } else ctx
    let ctx := { ctx with
      entryLen := ctx.entryLen + 1
      entryDeadlineMs := now.ms + uiEntryTimeoutMs }
    (ctx, if ctx.entryLen.toNat ≥ uiCodeLen then .submit else .none)

def uiOnLongPress (ctx : UiCtx) (ac : AcCtx) (now : UiNow) : UiCtx × UiAction :=
  if ctx.clockTrusted && acIsLockedOut ac now.epoch then (ctx, .none)
  else (goIdle ctx, .clearBuffer)

def uiOnResult (ctx : UiCtx) (ac : AcCtx) (r : AcResult) (now : UiNow) : UiCtx × UiAction :=
  let ctx := { ctx with entryLen := 0 }
  let ctx := match r with
    | .granted => { ctx with screen := .granted, screenUntilMs := now.ms + uiGrantedMs }
    | .deniedNotYet => { ctx with screen := .notYet, screenUntilMs := now.ms + uiInfoMs }
    | .deniedExpired => { ctx with screen := .expired, screenUntilMs := now.ms + uiInfoMs }
    | .deniedNoClock => { ctx with screen := .noClock, screenUntilMs := now.ms + uiInfoMs }
    | .deniedUnknown | .deniedBadFormat | .deniedLockout =>
      if acIsLockedOut ac now.epoch then goIdle ctx
      else { ctx with screen := .denied, screenUntilMs := now.ms + uiDeniedMs }
  (ctx, .clearBuffer)

def uiTick (ctx : UiCtx) (ac : AcCtx) (now : UiNow) : UiCtx × UiAction :=
  if ctx.clockTrusted && acIsLockedOut ac now.epoch then ({ ctx with entryLen := 0 }, .none)
  else if ctx.screen = .entry then
    if signed (ctx.entryDeadlineMs - now.ms) ≤ 0 then (goIdle ctx, .clearBuffer)
    else (ctx, .none)
  else if ctx.screenUntilMs ≠ 0 ∧ signed (ctx.screenUntilMs - now.ms) ≤ 0 then (goIdle ctx, .none)
  else (ctx, .none)

def uiRender (ctx : UiCtx) (ac : AcCtx) (now : UiNow) : UiRender :=
  if ctx.clockTrusted && acIsLockedOut ac now.epoch then
    { screen := .lockout
      progressPermille := permilleRemainingS now.epoch ac.lockoutUntil ac.lockoutSeconds
      attemptsUsed := ac.failedAttempts
      attemptsMax := ac.maxFailedAttempts
      secondsRemaining := UInt32.ofInt (ac.lockoutUntil - now.epoch)
      panelOn := true }
  else
    { screen := ctx.screen
      progressPermille :=
        if ctx.screen = .entry then
          permilleRemainingMs now.ms ctx.entryDeadlineMs uiEntryTimeoutMs
        else 0
      attemptsUsed := ac.failedAttempts
      attemptsMax := ac.maxFailedAttempts
      secondsRemaining := 0
      panelOn := ctx.screen ≠ .idle }

@[simp] theorem goIdle_clockTrusted (ctx : UiCtx) : (goIdle ctx).clockTrusted = ctx.clockTrusted :=
  rfl

@[simp] theorem goIdle_entryLen (ctx : UiCtx) : (goIdle ctx).entryLen = 0 := rfl

@[simp] theorem uiSetClockTrusted_clockTrusted (ctx : UiCtx) (trusted : Bool) :
    (uiSetClockTrusted ctx trusted).clockTrusted = trusted := by
  cases trusted <;> rfl

inductive UiKeyStep (ctx : UiCtx) (ac : AcCtx) (now : UiNow) : UiCtx × UiAction → Prop
  | noClock : ctx.clockTrusted = false →
      UiKeyStep ctx ac now ({ ctx with
        entryLen := 0, screen := .noClock, screenUntilMs := now.ms + uiInfoMs }, .none)
  | lockedOut : ctx.clockTrusted = true → acIsLockedOut ac now.epoch = true →
      UiKeyStep ctx ac now (ctx, .none)
  | typed (n : UInt8) : ctx.clockTrusted = true → acIsLockedOut ac now.epoch = false →
      n = (if ctx.screen = .entry then ctx.entryLen else 0) + 1 →
      UiKeyStep ctx ac now ({ ctx with
        screen := .entry, entryLen := n, entryDeadlineMs := now.ms + uiEntryTimeoutMs },
        if n.toNat ≥ uiCodeLen then .submit else .none)

theorem uiOnKey_step (ctx : UiCtx) (ac : AcCtx) (now : UiNow) :
    UiKeyStep ctx ac now (uiOnKey ctx ac now) := by
  unfold uiOnKey
  by_cases ht : ctx.clockTrusted = true
  · by_cases hl : acIsLockedOut ac now.epoch = true
    · simpa only [ht, hl, Bool.not_true, Bool.false_eq_true, if_false, if_true] using
        UiKeyStep.lockedOut ht hl
    · have hl' : acIsLockedOut ac now.epoch = false := by simpa using hl
      simp only [ht, hl', Bool.not_true, Bool.false_eq_true, if_false]
      by_cases hs : ctx.screen = .entry
      · simpa [hs, ht] using @UiKeyStep.typed ctx ac now _ ht hl' rfl
      · simpa [hs, ht] using @UiKeyStep.typed ctx ac now _ ht hl' rfl
  · have hf : ctx.clockTrusted = false := by simpa using ht
    simpa only [hf, Bool.not_false, if_true] using UiKeyStep.noClock hf

theorem uiOnResult_entry (ctx : UiCtx) (ac : AcCtx) (r : AcResult) (now : UiNow) :
    (uiOnResult ctx ac r now).1.entryLen = 0 ∧
      (uiOnResult ctx ac r now).1.clockTrusted = ctx.clockTrusted := by
  by_cases hl : acIsLockedOut ac now.epoch = true <;> cases r <;> simp [uiOnResult, hl]

@[simp] theorem uiTick_clockTrusted (ctx : UiCtx) (ac : AcCtx) (now : UiNow) :
    (uiTick ctx ac now).1.clockTrusted = ctx.clockTrusted := by
  unfold uiTick
  split_ifs <;> rfl

theorem uiTick_entry (ctx : UiCtx) (ac : AcCtx) (now : UiNow) :
    (uiTick ctx ac now).1.entryLen = 0 ∨
      (uiTick ctx ac now = (ctx, .none) ∧
        (ctx.clockTrusted = true → acIsLockedOut ac now.epoch = false)) := by
  unfold uiTick
  by_cases hl : (ctx.clockTrusted && acIsLockedOut ac now.epoch) = true
  · rw [if_pos hl]
    exact Or.inl rfl
  · rw [if_neg hl]
    have hn : ctx.clockTrusted = true → acIsLockedOut ac now.epoch = false := by
      simpa using hl
    split_ifs
    · exact Or.inl rfl
    · exact Or.inr ⟨rfl, hn⟩
    · exact Or.inl rfl
    · exact Or.inr ⟨rfl, hn⟩

/-- A tick darkens the screen or leaves it as it is. -/
theorem uiTick_screen (ctx : UiCtx) (ac : AcCtx) (now : UiNow) :
    ((uiTick ctx ac now).1.screen = ctx.screen ∧
      (uiTick ctx ac now).1.entryDeadlineMs = ctx.entryDeadlineMs ∧
      (uiTick ctx ac now).1.screenUntilMs = ctx.screenUntilMs ∧
      ((uiTick ctx ac now).1.entryLen = ctx.entryLen ∨ (uiTick ctx ac now).1.entryLen = 0) ∧
      (uiTick ctx ac now).2 = .none) ∨
    ((uiTick ctx ac now).1 = goIdle ctx ∧
      (ctx.screen = .entry → (uiTick ctx ac now).2 = .clearBuffer)) := by
  unfold uiTick
  split_ifs with hl hs hd hd
  · exact Or.inl ⟨rfl, rfl, rfl, Or.inr rfl, rfl⟩
  · exact Or.inr ⟨rfl, fun _ => rfl⟩
  · exact Or.inl ⟨rfl, rfl, rfl, Or.inl rfl, rfl⟩
  · exact Or.inr ⟨rfl, fun he => absurd he hs⟩
  · exact Or.inl ⟨rfl, rfl, rfl, Or.inl rfl, rfl⟩

theorem uiOnLongPress_entry (ctx : UiCtx) (ac : AcCtx) (now : UiNow) :
    (uiOnLongPress ctx ac now).1.clockTrusted = ctx.clockTrusted ∧
      ((uiOnLongPress ctx ac now).1.entryLen = 0 ∨
        (uiOnLongPress ctx ac now = (ctx, .none) ∧ acIsLockedOut ac now.epoch = true)) := by
  unfold uiOnLongPress
  by_cases hl : (ctx.clockTrusted && acIsLockedOut ac now.epoch) = true
  · rw [if_pos hl]
    exact ⟨rfl, Or.inr ⟨rfl, (Bool.and_eq_true_iff.mp hl).2⟩⟩
  · rw [if_neg hl]
    exact ⟨rfl, Or.inl rfl⟩

end GateAccess
