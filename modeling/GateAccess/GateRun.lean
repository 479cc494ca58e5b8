import GateAccess.GateCtrl

namespace GateAccess

/-- Everything that reaches the keypad path or the table under it between two boots. -/
inductive GateEvent
  | key (char : UInt8) (now : UiNow)
  | longPress (now : UiNow)
  | tick (now : UiNow)
  | clockTrusted (trusted : Bool)
  | upsert (id : List UInt8) (hash : Bytes acHashLen) (validFrom validUntil : Int)
  | upsertTransient (id : List UInt8) (hash : Bytes acHashLen) (validFrom validUntil : Int)
  | revoke (id : List UInt8)
  | revokeTransient
  | sync (ctx : SyncCtx) (set : SyncSet) (nowMs : UInt32)

def GateEvent.epoch : GateEvent → Option Int
  | .key _ now | .longPress now | .tick now => some now.epoch
  | _ => none

def GateEvent.char : GateEvent → Option UInt8
  | .key c _ => some c
  | _ => none

/-- The event as it is handled at this uptime. -/
def GateEvent.at (uptime : Nat) : GateEvent → GateEvent
  | .key c now => .key c ⟨nowMs uptime, now.epoch⟩
  | .longPress now => .longPress ⟨nowMs uptime, now.epoch⟩
  | .tick now => .tick ⟨nowMs uptime, now.epoch⟩
  | e => e

variable (hash : List UInt8 → Bytes acHashLen)

def gateStep (g : GateCtrl) : GateEvent → GateCtrl
  | .key key now => (gateOnKey hash g key now).1
  | .longPress now => (gateOnLongPress g now).1
  | .tick now => (gateTick g now).1
  | .clockTrusted trusted => gateAppSetClockTrusted g trusted
  | .upsert id h validFrom validUntil =>
    { g with ac := (acUpsert g.ac id h validFrom validUntil).1 }
  | .upsertTransient id h validFrom validUntil =>
    { g with ac := (acUpsertTransient g.ac id h validFrom validUntil).1 }
  | .revoke id => { g with ac := (acRevoke g.ac id).1 }
  | .revokeTransient => { g with ac := acRevokeTransient g.ac }
  | .sync ctx set nowMs => { g with ac := (syncApply ctx g.ac set nowMs).2.1 }

/-- `ac_init`, `ui_init` and `gate_init` in a row. -/
def gateBoot (maxFailedAttempts : UInt8) (lockoutSeconds : Int) : GateCtrl :=
  gateInit (acInit maxFailedAttempts lockoutSeconds) uiInit

/-- A boot with whatever attempts and codes are restored; the clock is not trusted yet. -/
def gateRestart (ac : AcCtx) : GateCtrl := gateInit { ac with clockTrusted := false } uiInit

def LiveKey (p : GateCtrl × GateEvent) : Prop :=
  ∀ key now, p.2 = .key key now →
    p.1.ac.clockTrusted = true ∧ p.1.ui.clockTrusted = true ∧
      acIsLockedOut p.1.ac now.epoch = false

/-- The step is no submit, long press, abandoning tick or loss of clock trust. -/
def Undisturbed (p : GateCtrl × GateEvent) : Prop :=
  match p.2 with
  | .key key now => (gateOnKey hash p.1 key now).2.submitted = false
  | .longPress _ => False
  | .tick now => (uiTick p.1.ui (gateTickAc p.1 now) now).2 ≠ .clearBuffer
  | .clockTrusted trusted => trusted = true
  | _ => True

def keysOf (steps : List (GateCtrl × GateEvent)) : List UInt8 :=
  steps.filterMap fun p => p.2.char

/-- A change of the table alone: attempts, lockout, policy and trust stay. -/
def TableEdit (before after : AcCtx) : Prop := ∃ slots, after = { before with slots := slots }

theorem TableEdit.refl (ctx : AcCtx) : TableEdit ctx ctx := ⟨ctx.slots, rfl⟩

theorem TableEdit.trans {a b c : AcCtx} (h : TableEdit a b) (h' : TableEdit b c) :
    TableEdit a c := by
  obtain ⟨slots, rfl⟩ := h
  obtain ⟨slots', rfl⟩ := h'
  exact ⟨slots', rfl⟩

theorem upsert_tableEdit (ctx : AcCtx) (id : List UInt8) (h : Bytes acHashLen)
    (validFrom validUntil : Int) (transient : Bool) :
    TableEdit ctx (upsert ctx id h validFrom validUntil transient).1 := by
  unfold upsert
  split
  next => exact .refl ctx
  next =>
    split
    next => exact .refl ctx
    next =>
      split
      next => exact .refl ctx
      next => exact ⟨_, rfl⟩

theorem acRevoke_tableEdit (ctx : AcCtx) (id : List UInt8) : TableEdit ctx (acRevoke ctx id).1 := by
  unfold acRevoke
  split
  next => exact .refl ctx
  next => exact ⟨_, rfl⟩

theorem installEntries_tableEdit (table : AcCtx) (es : List SyncEntry) :
    TableEdit table (installEntries table es).1 := by
  induction es generalizing table with
  | nil => exact .refl table
  | cons e es ih => exact (upsert_tableEdit table _ _ _ _ false).trans (ih _)

theorem syncApply_tableEdit (ctx : SyncCtx) (table : AcCtx) (set : SyncSet) (nowMs : UInt32) :
    TableEdit table (syncApply ctx table set nowMs).2.1 := by
  have wiped : TableEdit table (wipeGuests table) := ⟨_, rfl⟩
  unfold syncApply
  split_ifs
  · exact .refl table
  · exact .refl table
  · exact .refl table
  · exact .refl table
  · exact wiped.trans (installEntries_tableEdit _ _)

theorem gateStep_table {g : GateCtrl} {e : GateEvent} (he : e.epoch = none)
    (ht : ∀ trusted, e ≠ .clockTrusted trusted) :
    ∃ ac, TableEdit g.ac ac ∧ gateStep hash g e = { g with ac := ac } := by
  cases e with
  | key | longPress | tick => simp [GateEvent.epoch] at he
  | clockTrusted trusted => exact absurd rfl (ht trusted)
  | upsert => exact ⟨_, upsert_tableEdit _ _ _ _ _ _, rfl⟩
  | upsertTransient => exact ⟨_, upsert_tableEdit _ _ _ _ _ _, rfl⟩
  | revoke => exact ⟨_, acRevoke_tableEdit _ _, rfl⟩
  | revokeTransient => exact ⟨_, ⟨_, rfl⟩, rfl⟩
  | sync => exact ⟨_, syncApply_tableEdit _ _ _ _, rfl⟩

inductive GateKeyStep (g : GateCtrl) (key : UInt8) (now : UiNow) : GateCtrl × GateOut → Prop
  | noClock (ui : UiCtx) : ui.entryLen = 0 → ui.clockTrusted = g.ui.clockTrusted →
      GateKeyStep g key now (⟨g.ac, ui, g.buf⟩, GateOut.zero)
  | lockedOut (buf) : g.ui.clockTrusted = true → acIsLockedOut g.ac now.epoch = true →
      (g.ui.entryLen = 0 → buf = g.buf) → GateKeyStep g key now (⟨g.ac, g.ui, buf⟩, GateOut.zero)
  | typed (ui : UiCtx) : g.ui.clockTrusted = true → acIsLockedOut g.ac now.epoch = false →
      ui.screen = .entry → ui.clockTrusted = true →
      ui.entryLen.toNat = (if g.ui.screen = .entry then g.ui.entryLen.toNat else 0) + 1 →
      ui.entryLen.toNat < acCodeLen →
      GateKeyStep g key now (storeKey ⟨g.ac, ui, g.buf⟩ key, GateOut.zero)
  | submitted (ui : UiCtx) : g.ui.clockTrusted = true → acIsLockedOut g.ac now.epoch = false →
      ui.clockTrusted = true → g.ui.screen = .entry → g.ui.entryLen.toNat + 1 = acCodeLen →
      ui.entryLen.toNat = acCodeLen →
      hashInput g key now = some (codeArg (storeKey ⟨g.ac, ui, g.buf⟩ key)) →
      GateKeyStep g key now (submit hash (storeKey ⟨g.ac, ui, g.buf⟩ key) now)

theorem typed_toNat {ui : UiCtx} {n : UInt8} (hb : ui.entryLen.toNat < acCodeLen)
    (hn : n = (if ui.screen = .entry then ui.entryLen else 0) + 1) :
    n.toNat = (if ui.screen = .entry then ui.entryLen.toNat else 0) + 1 := by
  have h9 : acCodeLen = 9 := rfl
  rw [hn, UInt8.toNat_add]
  by_cases hs : ui.screen = .entry
  · simp only [hs, if_true]; simp; omega
  · simp [hs]

theorem gateOnKey_step {g : GateCtrl} (key : UInt8) (now : UiNow)
    (hb : g.ui.entryLen.toNat < acCodeLen) :
    GateKeyStep hash g key now (gateOnKey hash g key now) := by
  have h9 : acCodeLen = 9 := rfl
  have hu9 : uiCodeLen = 9 := rfl
  have hk := uiOnKey_step g.ui g.ac now
  have hin : hashInput g key now = if (uiOnKey g.ui g.ac now).1.entryLen ≠ 0 ∧
      (uiOnKey g.ui g.ac now).2 = .submit then
        some (codeArg (storeKey ⟨g.ac, (uiOnKey g.ui g.ac now).1, g.buf⟩ key)) else none := rfl
  rw [gateOnKey_eq]
  generalize uiOnKey g.ui g.ac now = stepped at hk hin
  cases hk with
  | noClock =>
    simp only [if_true]
    exact .noClock _ rfl rfl
  | lockedOut ht hl =>
    by_cases h0 : g.ui.entryLen = 0
    · simp only [h0, if_true]
      exact .lockedOut _ ht hl fun _ => rfl
    · simp only [h0, if_false, reduceCtorEq]
      exact .lockedOut _ ht hl fun h => absurd h h0
  | typed n ht hl hn =>
    have hlen := typed_toNat hb hn
    have h0 : n ≠ 0 := by
      intro h
      simp [h] at hlen
    simp only [h0, if_false]
    by_cases hs : n.toNat ≥ uiCodeLen
    · have hscreen : g.ui.screen = .entry := by
        by_contra hne
        rw [if_neg hne] at hlen
        omega
      rw [if_pos hscreen] at hlen
      simp only [hs, if_true]
      refine .submitted _ ht hl ht hscreen (by omega) (by dsimp only; omega) ?_
      rw [hin]
      simp [h0, hs]
    · simp only [hs, if_false, reduceCtorEq]
      exact .typed _ ht hl rfl ht hlen (by dsimp only; omega)

end GateAccess
