import GateAccess.GateRun

namespace GateAccess

/-- How long a screen is meant to stay. -/
def screenSpan : UiScreen → UInt32
  | .idle | .lockout => 0
  | .entry => uiEntryTimeoutMs
  | .granted => uiGrantedMs
  | .denied => uiDeniedMs
  | .notYet | .expired | .noClock => uiInfoMs

/-- A lockout keeps `ui_on_key` from taking a key. -/
def keyRefused (g : GateCtrl) (epoch : Int) : Bool := g.ui.clockTrusted && acIsLockedOut g.ac epoch

/-- The gate, with when its last key was handled and when the last one was taken. -/
structure Panel where
  gate : GateCtrl
  keyAt : Option Nat
  litAt : Nat

variable (hash : List UInt8 → Bytes acHashLen)

def panelAct (uptime : Nat) (p : Panel) (e : GateEvent) : Panel :=
  let gate := gateStep hash p.gate (e.at uptime)
  match e with
  | .key _ now => ⟨gate, some uptime, if keyRefused p.gate now.epoch then p.litAt else uptime⟩
  | _ => { p with gate := gate }

abbrev panelRun (ac : AcCtx) (calls : List (Timed GateEvent)) : AtTime Panel :=
  exec (timedStep (panelAct hash)) ⟨0, ⟨gateRestart ac, none, 0⟩⟩ calls

/-- The panel after a tick, as `ui_render` reports it. -/
def DarkAfterTick (g : GateCtrl) (now : UiNow) : Prop :=
  (gateTick g now).1.ui.screen = .idle ∧
    (uiRender (gateTick g now).1.ui (gateTick g now).1.ac now).screen = .idle ∧
    (uiRender (gateTick g now).1.ui (gateTick g now).1.ac now).panelOn = false

/-- A notice whose deadline fell on the 0 that stands for none, or a screen whose deadline passed so
long ago that it looks ahead. -/
def Overlooked (uptime : Nat) (p : Panel) : Prop :=
  p.gate.ui.screen ≠ .idle ∧
    ((p.gate.ui.screen ≠ .entry ∧ (p.litAt + (screenSpan p.gate.ui.screen).toNat) % 2 ^ 32 = 0) ∨
      2 ^ 31 < (uptime - (p.litAt + (screenSpan p.gate.ui.screen).toNat)) % 2 ^ 32)

/-- The deadlines of a screen that was lit at this time. -/
structure LitAt (ui : UiCtx) (t : Nat) : Prop where
  stored : ui.screen ≠ .lockout
  entry : ui.screen = .entry →
    ui.entryDeadlineMs = UInt32.ofNat (t + (screenSpan ui.screen).toNat)
  notice : ui.screen ≠ .idle → ui.screen ≠ .entry →
    ui.screenUntilMs = UInt32.ofNat (t + (screenSpan ui.screen).toNat)

theorem LitAt.dark {ui : UiCtx} (h : ui.screen = .idle) (t : Nat) : LitAt ui t := by
  constructor <;> simp [h]

theorem LitAt.same {ui ui' : UiCtx} {t : Nat} (h : LitAt ui t) (hscreen : ui'.screen = ui.screen)
    (hentry : ui'.entryDeadlineMs = ui.entryDeadlineMs) (huntil : ui'.screenUntilMs = ui.screenUntilMs) :
    LitAt ui' t := by
  constructor
  · rw [hscreen]; exact h.stored
  · rw [hscreen, hentry]; exact h.entry
  · rw [hscreen, huntil]; exact h.notice

theorem uiOnResult_lit (ctx : UiCtx) (ac : AcCtx) (r : AcResult) {now : UiNow} {t : Nat}
    (hms : now.ms = nowMs t) : LitAt (uiOnResult ctx ac r now).1 t := by
  have hsum : ∀ span, now.ms + span = UInt32.ofNat (t + span.toNat) := fun span => by
    rw [hms, nowMs_add]
  by_cases hl : acIsLockedOut ac now.epoch = true
  · cases r <;> constructor <;> simp [uiOnResult, hl, goIdle, screenSpan, hsum]
  · cases r <;> constructor <;> simp [uiOnResult, hl, screenSpan, hsum]

/-- A key that is refused leaves the screen; any other lights one. -/
theorem gateOnKey_lit (g : GateCtrl) (key : UInt8) {now : UiNow} {t : Nat} (hms : now.ms = nowMs t) :
    (keyRefused g now.epoch = true ∧ (gateOnKey hash g key now).1.ui = g.ui) ∨
      (keyRefused g now.epoch = false ∧ LitAt (gateOnKey hash g key now).1.ui t) := by
  have hk := uiOnKey_step g.ui g.ac now
  have hsum : ∀ span, now.ms + span = UInt32.ofNat (t + span.toNat) := fun span => by
    rw [hms, nowMs_add]
  rw [gateOnKey_eq]
  generalize uiOnKey g.ui g.ac now = stepped at hk
  cases hk with
  | noClock htrust =>
    refine .inr ⟨by simp [keyRefused, htrust], ?_⟩
    rw [if_pos rfl]
    constructor <;> simp [screenSpan, hsum]
  | lockedOut htrust hl =>
    refine .inl ⟨by simp [keyRefused, htrust, hl], ?_⟩
    split
    · rfl
    · rfl
  | typed n htrust hl hn =>
    refine .inr ⟨by simp [keyRefused, hl], ?_⟩
    have htyped : LitAt { g.ui with
        screen := .entry, entryLen := n, entryDeadlineMs := now.ms + uiEntryTimeoutMs } t := by
      constructor <;> simp [screenSpan, hsum]
    generalize (if n.toNat ≥ uiCodeLen then UiAction.submit else .none) = action
    split
    · exact htyped
    · split
      · exact uiOnResult_lit _ _ _ hms
      · exact htyped

/-- The screen is as the last key that was taken lit it, or dark. -/
structure PanelLit (p : Panel) : Prop where
  lit : LitAt p.gate.ui p.litAt
  byKey : p.gate.ui.screen ≠ .idle → ∃ k, p.keyAt = some k ∧ p.litAt ≤ k

theorem PanelLit.same {p p' : Panel} (h : PanelLit p) (hscreen : p'.gate.ui.screen = p.gate.ui.screen)
    (hentry : p'.gate.ui.entryDeadlineMs = p.gate.ui.entryDeadlineMs)
    (huntil : p'.gate.ui.screenUntilMs = p.gate.ui.screenUntilMs) (hkey : p'.keyAt = p.keyAt)
    (hlit : p'.litAt = p.litAt) : PanelLit p' := by
  refine ⟨?_, ?_⟩
  · rw [hlit]
    exact h.lit.same hscreen hentry huntil
  · rw [hscreen, hkey, hlit]
    exact h.byKey

theorem PanelLit.dark {p : Panel} (h : p.gate.ui.screen = .idle) : PanelLit p :=
  ⟨.dark h _, fun hne => absurd h hne⟩

theorem uiOnLongPress_screen (ctx : UiCtx) (ac : AcCtx) (now : UiNow) :
    (uiOnLongPress ctx ac now).1 = ctx ∨ (uiOnLongPress ctx ac now).1.screen = .idle := by
  unfold uiOnLongPress
  split
  · exact .inl rfl
  · exact .inr rfl

theorem panelAct_lit {t : Nat} {p : Panel} (h : PanelLit p) (hpast : ∀ k, p.keyAt = some k → k ≤ t)
    (e : GateEvent) : PanelLit (panelAct hash t p e) := by
  cases e with
  | key c now =>
    have hkey := @gateOnKey_lit hash p.gate c ⟨nowMs t, now.epoch⟩ t rfl
    rcases hkey with ⟨hrefused, hsame⟩ | ⟨htaken, hlit⟩
    · have hui : (panelAct hash t p (.key c now)).gate.ui = p.gate.ui := hsame
      have hat : (panelAct hash t p (.key c now)).litAt = p.litAt := if_pos hrefused
      refine ⟨by rw [hui, hat]; exact h.lit, fun hne => ⟨t, rfl, ?_⟩⟩
      rw [hui] at hne
      obtain ⟨k, hk, hle⟩ := h.byKey hne
      rw [hat]
      exact hle.trans (hpast k hk)
    · have hat : (panelAct hash t p (.key c now)).litAt = t := if_neg (by rw [htaken]; decide)
      exact ⟨by rw [hat]; exact hlit, fun _ => ⟨t, rfl, hat.le⟩⟩
  | longPress now =>
    rcases uiOnLongPress_screen p.gate.ui p.gate.ac ⟨nowMs t, now.epoch⟩ with hsame | hdark
    · have hui : (panelAct hash t p (.longPress now)).gate.ui = p.gate.ui := hsame
      exact h.same (by rw [hui]) (by rw [hui]) (by rw [hui]) rfl rfl
    · exact .dark hdark
  | tick now =>
    rcases uiTick_screen p.gate.ui (gateTickAc p.gate ⟨nowMs t, now.epoch⟩) ⟨nowMs t, now.epoch⟩ with
      ⟨hscreen, hentry, huntil, -, -⟩ | ⟨hdark, -⟩
    · exact h.same hscreen hentry huntil rfl rfl
    · exact .dark (congrArg UiCtx.screen hdark)
  | clockTrusted trusted =>
    cases trusted with
    | true => exact h.same rfl rfl rfl rfl rfl
    | false => exact .dark rfl
  | upsert | upsertTransient | revoke | revokeTransient | sync => exact h.same rfl rfl rfl rfl rfl

theorem panelAct_keyAt (t : Nat) (p : Panel) (e : GateEvent) :
    (panelAct hash t p e).keyAt = some t ∨ (panelAct hash t p e).keyAt = p.keyAt := by
  cases e with
  | key => exact .inl rfl
  | _ => exact .inr rfl

theorem panelRun_lit (ac : AcCtx) (calls : List (Timed GateEvent)) :
    PanelLit (panelRun hash ac calls).state := by
  have hrun : PanelLit (panelRun hash ac calls).state ∧
      ∀ k, (panelRun hash ac calls).state.keyAt = some k → k ≤ (panelRun hash ac calls).uptime := by
    refine timed_invariant (I := fun t (p : Panel) => PanelLit p ∧ ∀ k, p.keyAt = some k → k ≤ t)
      (fun t ms p h => ⟨h.1, fun k hk => (h.2 k hk).trans (Nat.le_add_right t ms)⟩)
      (fun t p e h => ⟨panelAct_lit hash h.1 h.2 e, fun k hk => ?_⟩) ⟨.dark rfl, by simp⟩ calls
    rcases panelAct_keyAt hash t p e with hnew | hold
    · exact (Option.some.inj (hnew.symm.trans hk)).ge
    · exact h.2 k (hold.symm.trans hk)
  exact hrun.1

/-- A deadline that has passed is seen to have passed, or it lies over 2^31 ms back. -/
theorem deadline_seen_iff {d t : Nat} (h : d ≤ t) :
    signed (UInt32.ofNat d - nowMs t) ≤ 0 ↔ ¬2 ^ 31 < (t - d) % 2 ^ 32 := by
  have hpos := signed_pos_iff (d := d) (t := t) (by omega)
  rw [nowMs, ← not_lt, hpos]
  omega

theorem ofNat_eq_zero_iff {d : Nat} : UInt32.ofNat d = 0 ↔ d % 2 ^ 32 = 0 := by
  rw [← UInt32.toNat_inj, UInt32.toNat_ofNat']
  rfl

theorem darkAfterTick_iff {g : GateCtrl} {now : UiNow}
    (hfree : (g.ui.clockTrusted && acIsLockedOut (gateTickAc g now) now.epoch) = false) :
    DarkAfterTick g now ↔ (uiTick g.ui (gateTickAc g now) now).1.screen = .idle := by
  have hrender : uiRender (gateTick g now).1.ui (gateTick g now).1.ac now =
      { screen := (gateTick g now).1.ui.screen
        progressPermille := if (gateTick g now).1.ui.screen = .entry then
          permilleRemainingMs now.ms (gateTick g now).1.ui.entryDeadlineMs uiEntryTimeoutMs else 0
        attemptsUsed := (gateTick g now).1.ac.failedAttempts
        attemptsMax := (gateTick g now).1.ac.maxFailedAttempts
        secondsRemaining := 0
        panelOn := (gateTick g now).1.ui.screen ≠ .idle } := by
    refine if_neg ?_
    have htrust : (gateTick g now).1.ui.clockTrusted = g.ui.clockTrusted := uiTick_clockTrusted _ _ _
    rw [htrust]
    exact Bool.not_eq_true _ ▸ hfree
  rw [DarkAfterTick, hrender]
  refine ⟨fun h => h.1, fun h => ⟨h, h, ?_⟩⟩
  exact decide_eq_false (not_not.mpr h)

/-- A tick after the deadline of a lit screen takes the screen down unless it overlooks it. -/
theorem PanelLit.tick_dark_iff {p : Panel} (h : PanelLit p) {t : Nat} {ac : AcCtx} {epoch : Int}
    (hfree : (p.gate.ui.clockTrusted && acIsLockedOut ac epoch) = false)
    (hlit : p.gate.ui.screen ≠ .idle)
    (hpast : p.litAt + (screenSpan p.gate.ui.screen).toNat ≤ t) :
    (uiTick p.gate.ui ac ⟨nowMs t, epoch⟩).1.screen = .idle ↔ ¬Overlooked t p := by
  have hseen := deadline_seen_iff hpast
  rw [uiTick, if_neg (by rw [hfree]; decide), Overlooked]
  by_cases hentry : p.gate.ui.screen = .entry
  · rw [if_pos hentry, h.lit.entry hentry]
    split
    next hpassed =>
      refine iff_of_true rfl ?_
      rintro ⟨-, ⟨hnotice, -⟩ | hlate⟩
      · exact hnotice hentry
      · exact hseen.mp hpassed hlate
    next hahead =>
      exact iff_of_false hlit (not_not.mpr ⟨hlit, .inr (not_not.mp (hseen.not.mp hahead))⟩)
  · rw [if_neg hentry, h.lit.notice hlit hentry]
    split
    next hpassed =>
      refine iff_of_true rfl ?_
      rintro ⟨-, ⟨-, hnone⟩ | hlate⟩
      · exact hpassed.1 (ofNat_eq_zero_iff.mpr hnone)
      · exact hseen.mp hpassed.2 hlate
    next hkept =>
      refine iff_of_false hlit (not_not.mpr ⟨hlit, ?_⟩)
      rcases not_and_or.mp hkept with hnone | hahead
      · exact .inl ⟨hentry, ofNat_eq_zero_iff.mp (not_not.mp hnone)⟩
      · exact .inr (not_not.mp (hseen.not.mp hahead))

/-- Ten seconds after the last key, and with no lockout, a tick leaves the panel dark unless it
overlooks the deadline of the screen. -/
theorem panel_dark_iff (ac : AcCtx) (calls : List (Timed GateEvent)) (epoch : Int)
    (hquiet : ∀ k, (panelRun hash ac calls).state.keyAt = some k →
      k + uiEntryTimeoutMs.toNat ≤ (panelRun hash ac calls).uptime)
    (hfree : ((panelRun hash ac calls).state.gate.ui.clockTrusted &&
      acIsLockedOut (gateTickAc (panelRun hash ac calls).state.gate
        ⟨nowMs (panelRun hash ac calls).uptime, epoch⟩) epoch) = false) :
    DarkAfterTick (panelRun hash ac calls).state.gate ⟨nowMs (panelRun hash ac calls).uptime, epoch⟩ ↔
      ¬Overlooked (panelRun hash ac calls).uptime (panelRun hash ac calls).state := by
  have h := panelRun_lit hash ac calls
  revert hquiet hfree h
  generalize (panelRun hash ac calls).state = p
  generalize (panelRun hash ac calls).uptime = t
  intro hquiet hfree h
  rw [darkAfterTick_iff hfree]
  by_cases hidle : p.gate.ui.screen = .idle
  · refine iff_of_true ?_ fun hover => hover.1 hidle
    rw [uiTick, if_neg (by rw [hfree]; decide), if_neg (by rw [hidle]; decide)]
    split
    · rfl
    · exact hidle
  · obtain ⟨k, hk, hle⟩ := h.byKey hidle
    have hspan : (screenSpan p.gate.ui.screen).toNat ≤ uiEntryTimeoutMs.toNat := by
      cases p.gate.ui.screen <;> decide
    have hdue := hquiet k hk
    exact h.tick_dark_iff hfree hidle (by omega)

theorem panel_dark_no_clock :
    DarkAfterTick (panelRun (fun _ => zeros _) (acInit 5 60)
        [.wait 1000, .event (.key 49 ⟨0, 0⟩), .wait 10000]).state.gate ⟨nowMs 11000, 0⟩ ↔
      ¬Overlooked 11000 (panelRun (fun _ => zeros _) (acInit 5 60)
        [.wait 1000, .event (.key 49 ⟨0, 0⟩), .wait 10000]).state :=
  panel_dark_iff (fun _ => zeros _) (acInit 5 60)
    [.wait 1000, .event (.key 49 ⟨0, 0⟩), .wait 10000] 0
    (fun _ hk => by cases hk; decide) (by decide)

/-- A key without a trusted clock 3 seconds before the counter wraps, and 10 seconds of silence. -/
def keyBeforeWrap : List (Timed GateEvent) :=
  [.wait 2147482148, .wait 2147482148, .event (.key 49 ⟨0, 0⟩), .wait 10000]

/-- Its notice has no deadline. -/
theorem notice_stays_lit :
    (panelRun (fun _ => zeros _) (acInit 5 60) keyBeforeWrap).state.keyAt = some 4294964296 ∧
    (gateTick (panelRun (fun _ => zeros _) (acInit 5 60) keyBeforeWrap).state.gate
        ⟨nowMs 4294974296, 0⟩).1.ui.screen = .noClock ∧
    ¬DarkAfterTick (panelRun (fun _ => zeros _) (acInit 5 60) keyBeforeWrap).state.gate
        ⟨nowMs 4294974296, 0⟩ := by
  have hlit : (gateTick (panelRun (fun _ => zeros _) (acInit 5 60) keyBeforeWrap).state.gate
      ⟨nowMs 4294974296, 0⟩).1.ui.screen = .noClock := by decide
  refine ⟨by decide, hlit, fun hdark => ?_⟩
  have hidle := hdark.1
  rw [hlit] at hidle
  cases hidle

end GateAccess
