import GateAccess.AccessCore
import GateAccess.WrapClock

namespace GateAccess

def syncPeriodMs : UInt32 := 15 * 60 * 1000
def syncStaleMs : UInt32 := 60 * 60 * 1000
def syncMaxEntries : Nat := 8

structure SyncEntry where
  id : Bytes acIdLen
  hash : Bytes acHashLen
  validFrom : Int
  validUntil : Int
  deriving DecidableEq

/-- The entry array with its count: the list holds the entries below `count`. -/
structure SyncSet where
  generation : Nat
  entries : List SyncEntry
  deriving DecidableEq

inductive SyncResult
  | applied
  | unchanged
  | stale
  | badEntry
  | overflowed
  deriving DecidableEq

structure SyncCtx where
  generation : Nat
  lastOkMs : UInt32
  everSynced : Bool
  nextDueMs : UInt32
  deriving DecidableEq

def syncInit (storedGeneration : Nat) (nowMs : UInt32) : SyncCtx where
  generation := storedGeneration
  lastOkMs := 0
  everSynced := false
  nextDueMs := nowMs

def syncDue (ctx : SyncCtx) (nowMs : UInt32) : Bool := signed (nowMs - ctx.nextDueMs) ≥ 0

def scheduleNext (ctx : SyncCtx) (nowMs : UInt32) : SyncCtx :=
  { ctx with nextDueMs := syncPeriodMs + nowMs }

def syncFailed (ctx : SyncCtx) (nowMs : UInt32) : SyncCtx := scheduleNext ctx nowMs

def syncUnchanged (ctx : SyncCtx) (nowMs : UInt32) : SyncCtx :=
  scheduleNext { ctx with lastOkMs := nowMs, everSynced := true } nowMs

def idIsBackend (id : List UInt8) : Bool :=
  (cstr id).length = acIdLen - 1 && (cstr id).all isHex

def entryRefused (e : SyncEntry) : Bool :=
  !idIsBackend e.id.toList || e.validUntil < e.validFrom

/-- A guest's slot as the replace loop leaves it: freed, with its hash and the start of its id
cleared and everything else still there. -/
def wipeGuest (s : AcSlot) : AcSlot :=
  if s.occupied && !s.transient then
    { s with occupied := false, hash := zeros _, id := putByte s.id 0 0 }
  else s

def wipeGuests (table : AcCtx) : AcCtx := { table with slots := fun i => wipeGuest (table.slots i) }

/-- The insertion loop; the flag says that some entry did not fit. -/
def installEntries : AcCtx → List SyncEntry → AcCtx × Bool
  | table, [] => (table, false)
  | table, e :: es =>
    let put := acUpsert table e.id.toList e.hash e.validFrom e.validUntil
    let rest := installEntries put.1 es
    (rest.1, put.2.isNone || rest.2)

def syncApply (ctx : SyncCtx) (table : AcCtx) (set : SyncSet) (nowMs : UInt32) :
    SyncCtx × AcCtx × SyncResult :=
  if set.entries.length > syncMaxEntries then (ctx, table, .badEntry)
  else if set.generation = ctx.generation ∧ ctx.everSynced = true then
    (syncUnchanged ctx nowMs, table, .unchanged)
  else if set.generation < ctx.generation then (ctx, table, .stale)
  else if set.entries.any entryRefused then (ctx, table, .badEntry)
  else
    let installed := installEntries (wipeGuests table) set.entries
    (scheduleNext { ctx with generation := set.generation, lastOkMs := nowMs, everSynced := true }
        nowMs,
      installed.1, if installed.2 then .overflowed else .applied)

def syncIsStale (ctx : SyncCtx) (nowMs : UInt32) : Bool :=
  if !ctx.everSynced then true else nowMs - ctx.lastOkMs > syncStaleMs

theorem syncFailed_eq (ctx : SyncCtx) (nowMs : UInt32) : syncFailed ctx nowMs =
    ⟨ctx.generation, ctx.lastOkMs, ctx.everSynced, syncPeriodMs + nowMs⟩ := rfl

theorem syncUnchanged_eq (ctx : SyncCtx) (nowMs : UInt32) : syncUnchanged ctx nowMs =
    ⟨ctx.generation, nowMs, true, syncPeriodMs + nowMs⟩ := rfl

end GateAccess
