import GateAccess.Traces
import Mathlib.Tactic.SplitIfs

namespace GateAccess

def provHoldMs : UInt32 := 5000
def provSessionMs : UInt32 := 5 * 60 * 1000
def provMaxLoginFailures : UInt8 := 5

inductive ProvState
  | closed
  | opened
  deriving DecidableEq

inductive ProvAction
  | none
  | openAp
  | closeAp
  deriving DecidableEq

structure ProvCtx where
  state : ProvState
  buttonDown : Bool
  buttonConsumed : Bool
  buttonDownMs : UInt32
  openedMs : UInt32
  authenticated : Bool
  loginFailures : UInt8
  deriving DecidableEq

def provInit : ProvCtx := ⟨.closed, false, false, 0, 0, false, 0⟩

def closeSession (ctx : ProvCtx) : ProvCtx × ProvAction :=
  if ctx.state ≠ .opened then (ctx, .none)
  else
    ({ ctx with state := .closed, authenticated := false, loginFailures := 0, openedMs := 0 },
      .closeAp)

def provButton (ctx : ProvCtx) (down : Bool) (nowMs : UInt32) : ProvCtx × ProvAction :=
  if !down then ({ ctx with buttonDown := false, buttonConsumed := false }, .none)
  else if !ctx.buttonDown then ({ ctx with buttonDown := true, buttonDownMs := nowMs }, .none)
  else if ctx.buttonConsumed = true ∨ ctx.state = .opened then (ctx, .none)
  else if nowMs - ctx.buttonDownMs < provHoldMs then (ctx, .none)
  else
    ({ ctx with
      buttonConsumed := true
      state := .opened
      openedMs := nowMs
      authenticated := false
      loginFailures := 0 }, .openAp)

def provTick (ctx : ProvCtx) (nowMs : UInt32) : ProvCtx × ProvAction :=
  if ctx.state ≠ .opened then (ctx, .none)
  else if nowMs - ctx.openedMs ≥ provSessionMs then closeSession ctx
  else (ctx, .none)

def provClose (ctx : ProvCtx) : ProvCtx × ProvAction := closeSession ctx

/-- The flag is what `prov_login` returns; the action of `close_session` is not. -/
def provLogin (ctx : ProvCtx) (credentialsOk : Bool) : ProvCtx × Bool :=
  if ctx.state ≠ .opened then (ctx, false)
  else if credentialsOk then ({ ctx with authenticated := true, loginFailures := 0 }, true)
  else
    let ctx :=
      if ctx.loginFailures < 255 then { ctx with loginFailures := ctx.loginFailures + 1 } else ctx
    if ctx.loginFailures ≥ provMaxLoginFailures then ((closeSession ctx).1, false) else (ctx, false)

def provIsOpen (ctx : ProvCtx) : Bool := ctx.state = .opened

def provIsAuthenticated (ctx : ProvCtx) : Bool := provIsOpen ctx && ctx.authenticated

/-- `prov_session_logout` of the HTTP bridge. -/
def provSessionLogout (ctx : ProvCtx) : ProvCtx :=
  if provIsOpen ctx then { ctx with authenticated := false } else ctx

/-- A call into the session logic; the clock it is read at is true time, of which the code sees the
low 32 bits. -/
inductive ProvCall
  | button (down : Bool) (atMs : Nat)
  | tick (atMs : Nat)
  | login (credentialsOk : Bool)
  | close
  | logout
  deriving DecidableEq

def ProvCall.time : ProvCall → Option Nat
  | .button _ atMs | .tick atMs => some atMs
  | _ => none

/-- The session after a call, and the action the call hands its caller. -/
def provCall (ctx : ProvCtx) : ProvCall → ProvCtx × ProvAction
  | .button down atMs => provButton ctx down (UInt32.ofNat atMs)
  | .tick atMs => provTick ctx (UInt32.ofNat atMs)
  | .login ok => ((provLogin ctx ok).1, .none)
  | .close => provClose ctx
  | .logout => (provSessionLogout ctx, .none)

def provStep (ctx : ProvCtx) (call : ProvCall) : ProvCtx := (provCall ctx call).1

abbrev provRun (calls : List ProvCall) : ProvCtx := exec provStep provInit calls

/-- How often the calls of a run handed out an action. -/
def handed (a : ProvAction) (ctx : ProvCtx) (calls : List ProvCall) : Nat :=
  (trace provStep ctx calls).countP fun p => (provCall p.1 p.2).2 = a

/-- A wrong login that ends the session. -/
def LastStraw (p : ProvCtx × ProvCall) : Prop :=
  p.2 = .login false ∧ p.1.state = .opened ∧ 4 ≤ p.1.loginFailures.toNat

instance : DecidablePred LastStraw := fun p =>
  inferInstanceAs (Decidable (p.2 = .login false ∧ p.1.state = .opened ∧ 4 ≤ p.1.loginFailures.toNat))

/-- The sessions that are open: one or none. -/
def ProvCtx.sessions (ctx : ProvCtx) : Nat := if ctx.state = .opened then 1 else 0

def lastStraws (ctx : ProvCtx) (calls : List ProvCall) : Nat :=
  (trace provStep ctx calls).countP fun p => LastStraw p

/-- The exits of one call. -/
inductive ProvStep (ctx : ProvCtx) (call : ProvCall) : ProvCtx × ProvAction → Prop
  | kept (ctx') : ctx'.state = ctx.state → ctx'.openedMs = ctx.openedMs →
      ¬LastStraw (ctx, call) → ProvStep ctx call (ctx', .none)
  | opened (t) : call = .button true t → ctx.state = .closed → ctx.buttonDown = true →
      ctx.buttonConsumed = false → ¬UInt32.ofNat t - ctx.buttonDownMs < provHoldMs →
      ProvStep ctx call (⟨.opened, ctx.buttonDown, true, ctx.buttonDownMs, UInt32.ofNat t, false, 0⟩,
        .openAp)
  | closed (ctx') : ctx.state = .opened → ctx'.state = .closed → ¬LastStraw (ctx, call) →
      ProvStep ctx call (ctx', .closeAp)
  | dropped (ctx') : LastStraw (ctx, call) → ctx'.state = .closed → ProvStep ctx call (ctx', .none)

theorem closeSession_step {ctx : ProvCtx} {call : ProvCall} (h : ctx.state = .opened)
    (hlast : ¬LastStraw (ctx, call)) : ProvStep ctx call (closeSession ctx) := by
  rw [closeSession, if_neg (not_not.mpr h)]
  exact .closed _ h rfl hlast

theorem closeSession_closed (ctx : ProvCtx) : (closeSession ctx).1.state = .closed := by
  unfold closeSession
  split
  next h =>
    cases hs : ctx.state with
    | closed => rfl
    | opened => exact absurd hs h
  next => rfl

theorem provLogin_step (ctx : ProvCtx) (ok : Bool) :
    ProvStep ctx (.login ok) ((provLogin ctx ok).1, .none) := by
  have h4 (h : ctx.loginFailures < 255) :
      (ctx.loginFailures + 1).toNat = ctx.loginFailures.toNat + 1 := by
    have := UInt8.lt_iff_toNat_lt.mp h
    rw [UInt8.toNat_add]
    simp at this ⊢
    omega
  unfold provLogin
  by_cases hs : ctx.state = .opened
  · rw [if_neg (not_not.mpr hs)]
    cases ok with
    | true => exact .kept _ rfl rfl (by simp [LastStraw])
    | false =>
      simp only [Bool.false_eq_true, if_false]
      by_cases hf : ctx.loginFailures < 255
      · simp only [hf, if_true]
        split_ifs with hmax
        · have hle := UInt8.le_iff_toNat_le.mp hmax
          rw [h4 hf] at hle
          change 5 ≤ _ at hle
          have hfour : 4 ≤ ctx.loginFailures.toNat := by omega
          exact .dropped _ ⟨rfl, hs, hfour⟩ (closeSession_closed _)
        · refine .kept _ rfl rfl fun hlast => hmax (UInt8.le_iff_toNat_le.mpr ?_)
          rw [h4 hf]
          have hfour : 4 ≤ ctx.loginFailures.toNat := hlast.2.2
          change 5 ≤ _
          omega
      · simp only [hf, if_false]
        have hge := UInt8.lt_iff_toNat_lt.not.mp hf
        change ¬_ < 255 at hge
        have hfour : 4 ≤ ctx.loginFailures.toNat := by omega
        rw [if_pos (UInt8.le_iff_toNat_le.mpr (by change 5 ≤ _; omega))]
        exact .dropped _ ⟨rfl, hs, hfour⟩ (closeSession_closed _)
  · rw [if_pos hs]
    exact .kept _ rfl rfl fun hlast => hs hlast.2.1

theorem provCall_step (ctx : ProvCtx) (call : ProvCall) : ProvStep ctx call (provCall ctx call) := by
  cases call with
  | button down t =>
    have hlast : ¬LastStraw (ctx, .button down t) := by simp [LastStraw]
    simp only [provCall, provButton]
    cases down with
    | false => exact .kept _ rfl rfl hlast
    | true =>
      simp only [Bool.not_true, Bool.false_eq_true, if_false]
      split_ifs with hdown hbusy hheld
      · exact .kept _ rfl rfl hlast
      · exact .kept _ rfl rfl hlast
      · exact .kept _ rfl rfl hlast
      · obtain ⟨hconsumed, hstate⟩ := not_or.mp hbusy
        refine .opened t rfl ?_ (by simpa using hdown) (by simpa using hconsumed) hheld
        cases hs : ctx.state with
        | closed => rfl
        | opened => exact absurd hs hstate
  | tick t =>
    have hlast : ¬LastStraw (ctx, .tick t) := by simp [LastStraw]
    simp only [provCall, provTick]
    split_ifs with hs ht
    · exact .kept _ rfl rfl hlast
    · exact closeSession_step (not_not.mp hs) hlast
    · exact .kept _ rfl rfl hlast
  | login ok => exact provLogin_step ctx ok
  | close =>
    have hlast : ¬LastStraw (ctx, .close) := by simp [LastStraw]
    simp only [provCall, provClose]
    by_cases hs : ctx.state = .opened
    · exact closeSession_step hs hlast
    · rw [closeSession, if_pos hs]
      exact .kept _ rfl rfl hlast
  | logout =>
    have hlast : ¬LastStraw (ctx, .logout) := by simp [LastStraw]
    simp only [provCall, provSessionLogout]
    split <;> exact .kept _ rfl rfl hlast

theorem ProvCtx.sessions_opened {ctx : ProvCtx} (h : ctx.state = .opened) : ctx.sessions = 1 :=
  if_pos h

theorem ProvCtx.sessions_closed {ctx : ProvCtx} (h : ctx.state = .closed) : ctx.sessions = 0 := by
  simp [ProvCtx.sessions, h]

/-- Every opening is still open, was closed by an action, or was dropped by a last straw. -/
theorem handed_balance (ctx : ProvCtx) (calls : List ProvCall) :
    handed .openAp ctx calls + ctx.sessions =
      handed .closeAp ctx calls + lastStraws ctx calls + (exec provStep ctx calls).sessions := by
  induction calls generalizing ctx with
  | nil => simp [handed, lastStraws]
  | cons call calls ih =>
    specialize ih (provStep ctx call)
    have hs := provCall_step ctx call
    simp only [handed, lastStraws, trace_cons, exec_cons, List.countP_cons] at ih ⊢
    rcases hout : provCall ctx call with ⟨next, action⟩
    have hnext : provStep ctx call = next := congrArg Prod.fst hout
    rw [hout] at hs
    rw [hnext] at ih ⊢
    cases hs with
    | kept _ hstate hopened hlast =>
      have : next.sessions = ctx.sessions := by unfold ProvCtx.sessions; rw [hstate]
      simp only [hlast, reduceCtorEq, decide_false, Bool.false_eq_true, if_false]
      omega
    | opened t hcall hclosed =>
      have hlast : ¬LastStraw (ctx, call) := by simp [LastStraw, hcall]
      have hone := ProvCtx.sessions_opened (congrArg ProvCtx.state hnext)
      have := ProvCtx.sessions_closed hclosed
      simp only [hlast, reduceCtorEq, decide_false, decide_true, Bool.false_eq_true, if_false, if_true]
      rw [hnext] at hone
      omega
    | closed _ hopened hclosed hlast =>
      have := ProvCtx.sessions_opened hopened
      have := ProvCtx.sessions_closed hclosed
      simp only [hlast, reduceCtorEq, decide_false, decide_true, Bool.false_eq_true, if_false, if_true]
      omega
    | dropped _ hlast hclosed =>
      have : ctx.sessions = 1 := ProvCtx.sessions_opened hlast.2.1
      have := ProvCtx.sessions_closed hclosed
      simp only [hlast, reduceCtorEq, decide_false, decide_true, Bool.false_eq_true, if_false, if_true]
      omega

theorem lastStraws_zero {ctx : ProvCtx} {calls : List ProvCall} :
    lastStraws ctx calls = 0 ↔ ∀ p ∈ trace provStep ctx calls, ¬LastStraw p := by
  simp [lastStraws, List.countP_eq_zero]

/-- At rest, the openings and the closings of a run agree as long as no session was dropped. -/
theorem handed_iff {calls : List ProvCall} (h : (provRun calls).state = .closed) :
    handed .openAp provInit calls = handed .closeAp provInit calls ↔
      ∀ p ∈ trace provStep provInit calls, ¬LastStraw p := by
  rw [← lastStraws_zero]
  have hbal := handed_balance provInit calls
  have hstart : provInit.sessions = 0 := ProvCtx.sessions_closed rfl
  have hend : (exec provStep provInit calls).sessions = 0 := ProvCtx.sessions_closed h
  omega

end GateAccess
