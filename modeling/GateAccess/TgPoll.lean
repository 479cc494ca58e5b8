import GateAccess.WrapClock

namespace GateAccess

def tgBackoffMinMs : UInt32 := 5000
def tgBackoffMaxMs : UInt32 := 300000
def tgMinGapMs : UInt32 := 1000

structure TgPollCtx where
  offset : Nat
  nextDueMs : UInt32
  backoffMs : UInt32
  consecutiveFailures : UInt32
  offsetDirty : Bool
  started : Bool
  fatal : Bool
  deriving DecidableEq

def tgPollInit (storedOffset : Nat) (nowMs : UInt32) : TgPollCtx where
  offset := storedOffset
  nextDueMs := nowMs
  backoffMs := 0
  consecutiveFailures := 0
  offsetDirty := false
  started := true
  fatal := false

def tgPollDue (ctx : TgPollCtx) (nowMs : UInt32) (online : Bool) : Bool :=
  if !ctx.started || ctx.fatal || !online then false else signed (nowMs - ctx.nextDueMs) ≥ 0

def tgPollOk (ctx : TgPollCtx) (nowMs : UInt32) : TgPollCtx :=
  { ctx with backoffMs := 0, consecutiveFailures := 0, nextDueMs := nowMs + tgMinGapMs }

def tgPollFatal (ctx : TgPollCtx) : TgPollCtx := { ctx with fatal := true }

def tgPollFailed (ctx : TgPollCtx) (nowMs : UInt32) : TgPollCtx :=
  let next :=
    if ctx.backoffMs = 0 then tgBackoffMinMs
    else if ctx.backoffMs > tgBackoffMaxMs / 2 then tgBackoffMaxMs
    else ctx.backoffMs * 2
  { ctx with
    consecutiveFailures :=
      if ctx.consecutiveFailures < 4294967295 then ctx.consecutiveFailures + 1
      else ctx.consecutiveFailures
    backoffMs := next
    nextDueMs := nowMs + next }

/-- The flag says whether the offset moved. -/
def tgPollConsume (ctx : TgPollCtx) (updateId : Nat) : TgPollCtx × Bool :=
  if updateId ≤ ctx.offset then (ctx, false)
  else ({ ctx with offset := updateId, offsetDirty := true }, true)

def tgPollPersisted (ctx : TgPollCtx) : TgPollCtx := { ctx with offsetDirty := false }

theorem tgPollConsume_offset (ctx : TgPollCtx) (updateId : Nat) :
    (tgPollConsume ctx updateId).1.offset = max ctx.offset updateId := by
  unfold tgPollConsume
  split
  · rw [Nat.max_eq_left (by assumption)]
  · rw [Nat.max_eq_right (by omega)]

end GateAccess
