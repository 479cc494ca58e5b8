import GateAccess.Ui
import GateAccess.SyncLogic
import GateAccess.Traces

namespace GateAccess

/-- `gate_ctrl_t` with the two contexts it points to; the hash callback is a parameter below. -/
structure GateCtrl where
  ac : AcCtx
  ui : UiCtx
  buf : Bytes (acCodeLen + 1)

structure GateOut where
  submitted : Bool
  result : AcResult
  openLock : Bool
  persistAttempts : Bool
  matchedId : Bytes acIdLen
  deriving DecidableEq

def GateOut.zero : GateOut := ⟨false, .granted, false, false, zeros _⟩

def attemptsChanged (ac : AcCtx) (f0 : UInt8) (l0 : Int) : Bool :=
  ac.failedAttempts ≠ f0 || ac.lockoutUntil ≠ l0

def gateInit (ac : AcCtx) (ui : UiCtx) : GateCtrl := ⟨ac, ui, zeros _⟩

variable (hash : List UInt8 → Bytes acHashLen)

/-- The buffer the hash callback is handed: the entry with its terminator in place. -/
def codeArg (g : GateCtrl) : List UInt8 := (putByte g.buf acCodeLen 0).toList

def submit (g : GateCtrl) (now : UiNow) : GateCtrl × GateOut :=
  let f0 := g.ac.failedAttempts
  let l0 := g.ac.lockoutUntil
  let verdict := acEvaluate g.ac (hash (codeArg g)) now.epoch
  let r := verdict.2.1
  (⟨verdict.1, (uiOnResult g.ui verdict.1 r now).1, zeros _⟩,
    { submitted := true
      result := r
      openLock := r = .granted
      persistAttempts := attemptsChanged verdict.1 f0 l0
      matchedId := verdict.2.2.getD (zeros _) })

def storeKey (g : GateCtrl) (key : UInt8) : GateCtrl :=
  let n := g.ui.entryLen
  let buf := if n = 1 then zeros _ else g.buf
  { g with buf := if n.toNat ≤ acCodeLen then putByte buf (n.toNat - 1) key else buf }

def gateOnKey (g : GateCtrl) (key : UInt8) (now : UiNow) : GateCtrl × GateOut :=
  let (ui, a) := uiOnKey g.ui g.ac now
  let g := { g with ui := ui }
  if g.ui.entryLen = 0 then (g, GateOut.zero)
  else
    let g := storeKey g key
    if a = .submit then submit hash g now else (g, GateOut.zero)

/-- What `gate_on_key` hands to the hash callback, when it calls it. -/
def hashInput (g : GateCtrl) (key : UInt8) (now : UiNow) : Option (List UInt8) :=
  let (ui, a) := uiOnKey g.ui g.ac now
  let g := { g with ui := ui }
  if g.ui.entryLen ≠ 0 ∧ a = .submit then some (codeArg (storeKey g key)) else none

def gateOnLongPress (g : GateCtrl) (now : UiNow) : GateCtrl × GateOut :=
  let (ui, a) := uiOnLongPress g.ui g.ac now
  (⟨g.ac, ui, if a = .clearBuffer then zeros _ else g.buf⟩, GateOut.zero)

/-- The attempt state `gate_tick` hands to `ui_tick`. -/
def gateTickAc (g : GateCtrl) (now : UiNow) : AcCtx :=
  if g.ui.clockTrusted then acTick g.ac now.epoch else g.ac

def gateTick (g : GateCtrl) (now : UiNow) : GateCtrl × GateOut :=
  let ac := gateTickAc g now
  let (ui, a) := uiTick g.ui ac now
  (⟨ac, ui, if a = .clearBuffer then zeros _ else g.buf⟩,
    { GateOut.zero with
      persistAttempts := attemptsChanged ac g.ac.failedAttempts g.ac.lockoutUntil })

def gateAppSetClockTrusted (g : GateCtrl) (trusted : Bool) : GateCtrl :=
  { g with
    ac := { g.ac with clockTrusted := trusted }
    ui := uiSetClockTrusted g.ui trusted }

@[simp] theorem gateTickAc_clockTrusted (g : GateCtrl) (now : UiNow) :
    (gateTickAc g now).clockTrusted = g.ac.clockTrusted := by
  unfold gateTickAc
  split <;> simp

@[simp] theorem gateTickAc_slots (g : GateCtrl) (now : UiNow) :
    (gateTickAc g now).slots = g.ac.slots := by
  unfold gateTickAc
  split <;> simp

theorem gateOnKey_eq (g : GateCtrl) (key : UInt8) (now : UiNow) :
    gateOnKey hash g key now = if (uiOnKey g.ui g.ac now).1.entryLen = 0 then
      (⟨g.ac, (uiOnKey g.ui g.ac now).1, g.buf⟩, GateOut.zero)
      else if (uiOnKey g.ui g.ac now).2 = .submit then
        submit hash (storeKey ⟨g.ac, (uiOnKey g.ui g.ac now).1, g.buf⟩ key) now
      else (storeKey ⟨g.ac, (uiOnKey g.ui g.ac now).1, g.buf⟩ key, GateOut.zero) := rfl

theorem submit_entry (g : GateCtrl) (now : UiNow) :
    (submit hash g now).1.ui.entryLen = 0 ∧
      (submit hash g now).1.ui.clockTrusted = g.ui.clockTrusted ∧
      (submit hash g now).1.ac.clockTrusted = g.ac.clockTrusted := by
  have hr := uiOnResult_entry g.ui (acEvaluate g.ac (hash (codeArg g)) now.epoch).1
    (acEvaluate g.ac (hash (codeArg g)) now.epoch).2.1 now
  exact ⟨hr.1, hr.2, acEvaluate_clockTrusted _ _ _⟩

end GateAccess
