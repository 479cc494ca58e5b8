import GateAccess.CBytes
import GateAccess.ProvLogic

namespace GateAccess

inductive WifiProvEvt
  | none
  | opened
  | closed
  deriving DecidableEq

/-- The statics of `wifi_prov.c` once the button is configured, with `s_running` of `prov_ap.c`:
soft AP, DNS and web server up. -/
structure WifiProv where
  ctx : ProvCtx
  finishRequested : Bool
  ssid : List UInt8
  running : Bool
  deriving DecidableEq

def wifiProvInit : WifiProv := ⟨provInit, false, [], false⟩

/-- What the radio and the web server answer when they are asked to start: the SSID of the soft AP
when `net_link_ap_up` brings it up. -/
structure ApStart where
  linkUp : Option (List UInt8)
  httpStarts : Bool
  deriving DecidableEq

def provApStart (w : WifiProv) (start : ApStart) : WifiProv × Bool :=
  if w.running then (w, true)
  else
    match start.linkUp with
    | none => (w, false)
    | some ssid =>
      if start.httpStarts then ({ w with ssid := ssid, running := true }, true)
      else ({ w with ssid := ssid }, false)

def provApStop (w : WifiProv) : WifiProv := { w with running := false }

/-- The part of `wifi_prov_tick` after the finish request. -/
def wifiProvPoll (w : WifiProv) (down : Bool) (start : ApStart) (nowMs : UInt32) :
    WifiProv × WifiProvEvt :=
  let pressed := provButton w.ctx down nowMs
  let acted := if pressed.2 = .none then provTick pressed.1 nowMs else pressed
  let w := { w with ctx := acted.1 }
  match acted.2 with
  | .openAp =>
    let started := provApStart w start
    if started.2 then (started.1, .opened)
    else ({ started.1 with ctx := (provClose started.1.ctx).1, ssid := [] }, .none)
  | .closeAp => ({ provApStop w with ssid := [] }, .closed)
  | .none => (w, .none)

def wifiProvTick (w : WifiProv) (down : Bool) (start : ApStart) (nowMs : UInt32) :
    WifiProv × WifiProvEvt :=
  if w.finishRequested then
    let closed := provClose w.ctx
    let w := { w with finishRequested := false, ctx := closed.1 }
    if closed.2 = .closeAp then ({ provApStop w with ssid := [] }, .closed)
    else wifiProvPoll w down start nowMs
  else wifiProvPoll w down start nowMs

/-- A tick of the main loop, or a request the web server's task handles. -/
inductive WifiCall
  | tick (down : Bool) (start : ApStart) (nowMs : UInt32)
  | login (credentialsOk : Bool)
  | logout
  | finish
  deriving DecidableEq

def wifiCall (w : WifiProv) : WifiCall → WifiProv × WifiProvEvt
  | .tick down start nowMs => wifiProvTick w down start nowMs
  | .login ok => ({ w with ctx := (provLogin w.ctx ok).1 }, .none)
  | .logout => ({ w with ctx := provSessionLogout w.ctx }, .none)
  | .finish => ({ w with finishRequested := true }, .none)

def wifiStep (w : WifiProv) (call : WifiCall) : WifiProv := (wifiCall w call).1

abbrev wifiRun (calls : List WifiCall) : WifiProv := exec wifiStep wifiProvInit calls

/-- How often the main loop was told of an event. -/
def told (evt : WifiProvEvt) (calls : List WifiCall) : Nat :=
  (trace wifiStep wifiProvInit calls).countP fun p => (wifiCall p.1 p.2).2 = evt

/-- A wrong login that ends the session. -/
def WifiStraw (p : WifiProv × WifiCall) : Prop :=
  p.2 = .login false ∧ LastStraw (p.1.ctx, .login false)

/-- The portal is up exactly while a session is open, and every opening but the one still running
was followed by the event that revokes the dev codes. -/
structure PortalTold (calls : List WifiCall) : Prop where
  running : (wifiRun calls).running = true ↔ (wifiRun calls).ctx.state = .opened
  told : told .opened calls = told .closed calls + (wifiRun calls).ctx.sessions

/-- The exits of one call. -/
inductive WifiStep (w : WifiProv) (call : WifiCall) : WifiProv × WifiProvEvt → Prop
  | kept (w') : w'.ctx.state = w.ctx.state → w'.running = w.running → ¬WifiStraw (w, call) →
      WifiStep w call (w', .none)
  | opened (w') : w.ctx.state = .closed → w'.ctx.state = .opened → w'.running = true →
      ¬WifiStraw (w, call) → WifiStep w call (w', .opened)
  | closed (w') : w.ctx.state = .opened → w'.ctx.state = .closed → w'.running = false →
      ¬WifiStraw (w, call) → WifiStep w call (w', .closed)
  | dropped (w') : WifiStraw (w, call) → w'.ctx.state = .closed → WifiStep w call (w', .none)

/-- Without a failed start there is nothing to undo. -/
theorem provApStart_cases (w : WifiProv) (start : ApStart) :
    ((provApStart w start).2 = true ∧ (provApStart w start).1.running = true ∨
      (provApStart w start).2 = false ∧ (provApStart w start).1.running = w.running) ∧
    (provApStart w start).1.ctx = w.ctx := by
  unfold provApStart
  split_ifs with hrun hhttp
  · exact ⟨.inl ⟨rfl, hrun⟩, rfl⟩
  all_goals
    split
    next => exact ⟨.inr ⟨rfl, rfl⟩, rfl⟩
    next => simp

/-- What the button and the session clock, read in one tick, did to the session. -/
inductive Acted (ctx : ProvCtx) : ProvCtx × ProvAction → Prop
  | kept (ctx') : ctx'.state = ctx.state → Acted ctx (ctx', .none)
  | opened (ctx') : ctx.state = .closed → ctx'.state = .opened → Acted ctx (ctx', .openAp)
  | closed (ctx') : ctx.state = .opened → ctx'.state = .closed → Acted ctx (ctx', .closeAp)

theorem provTick_acted (ctx : ProvCtx) (nowMs : UInt32) : Acted ctx (provTick ctx nowMs) := by
  have hs := provCall_step ctx (.tick nowMs.toNat)
  simp only [provCall, UInt32.ofNat_toNat] at hs
  generalize provTick ctx nowMs = out at hs ⊢
  cases hs with
  | kept _ hstate => exact .kept _ hstate
  | opened t hcall => cases hcall
  | closed _ hopened hclosed => exact .closed _ hopened hclosed
  | dropped _ hlast => cases hlast.1

theorem provButton_acted (ctx : ProvCtx) (down : Bool) (nowMs : UInt32) :
    Acted ctx (provButton ctx down nowMs) := by
  have hs := provCall_step ctx (.button down nowMs.toNat)
  simp only [provCall, UInt32.ofNat_toNat] at hs
  generalize provButton ctx down nowMs = out at hs ⊢
  cases hs with
  | kept _ hstate => exact .kept _ hstate
  | opened t hcall hclosed => exact .opened _ hclosed rfl
  | closed _ hopened hclosed => exact .closed _ hopened hclosed
  | dropped _ hlast => cases hlast.1

theorem Acted.of_state {ctx ctx₀ : ProvCtx} {out : ProvCtx × ProvAction} (h : Acted ctx out)
    (heq : ctx.state = ctx₀.state) : Acted ctx₀ out := by
  cases h with
  | kept ctx' hstate => exact .kept _ (hstate.trans heq)
  | opened ctx' hclosed hopened => exact .opened _ (heq ▸ hclosed) hopened
  | closed ctx' hopened hclosed => exact .closed _ (heq ▸ hopened) hclosed

theorem press_tick_acted (ctx : ProvCtx) (down : Bool) (nowMs : UInt32) :
    Acted ctx (if (provButton ctx down nowMs).2 = .none then
      provTick (provButton ctx down nowMs).1 nowMs else provButton ctx down nowMs) := by
  have hs := provButton_acted ctx down nowMs
  generalize provButton ctx down nowMs = out at hs ⊢
  cases hs with
  | kept ctx' hstate => exact (provTick_acted ctx' nowMs).of_state hstate
  | opened ctx' hclosed hopened => exact .opened _ hclosed hopened
  | closed ctx' hopened hclosed => exact .closed _ hopened hclosed

theorem wifiProvPoll_step {w w₀ : WifiProv} {call : WifiCall} (down : Bool) (start : ApStart)
    (nowMs : UInt32) (hstate : w.ctx.state = w₀.ctx.state) (hrun : w.running = w₀.running)
    (hstraw : ¬WifiStraw (w₀, call)) : WifiStep w₀ call (wifiProvPoll w down start nowMs) := by
  unfold wifiProvPoll
  have hs := press_tick_acted w.ctx down nowMs
  simp only
  generalize (if (provButton w.ctx down nowMs).2 = .none then
    provTick (provButton w.ctx down nowMs).1 nowMs else provButton w.ctx down nowMs) = out at hs ⊢
  cases hs with
  | kept ctx' hkept => exact .kept _ (hkept.trans hstate) hrun hstraw
  | closed ctx' hopened hclosed => exact .closed _ (hstate ▸ hopened) hclosed rfl hstraw
  | opened ctx' hclosed hopened =>
    obtain ⟨hcases, hctx⟩ := provApStart_cases { w with ctx := ctx' } start
    simp only
    rcases hcases with ⟨hok, hup⟩ | ⟨hok, hup⟩
    · rw [if_pos hok]
      exact .opened _ (hstate ▸ hclosed) (by rw [hctx]; exact hopened) hup hstraw
    · rw [if_neg (by rw [hok]; simp)]
      have hback : (provClose (provApStart { w with ctx := ctx' } start).1.ctx).1.state = .closed :=
        closeSession_closed _
      exact .kept _ (hback.trans (hclosed.symm.trans hstate)) (hup.trans hrun) hstraw

theorem wifiProvTick_step (w : WifiProv) (down : Bool) (start : ApStart) (nowMs : UInt32) :
    WifiStep w (.tick down start nowMs) (wifiProvTick w down start nowMs) := by
  have hstraw : ¬WifiStraw (w, .tick down start nowMs) := by simp [WifiStraw]
  unfold wifiProvTick
  split
  next =>
    simp only
    by_cases hs : w.ctx.state = .opened
    · have hclose : (provClose w.ctx).2 = .closeAp := by
        rw [provClose, closeSession, if_neg (not_not.mpr hs)]
      rw [if_pos hclose]
      exact .closed _ hs (closeSession_closed _) rfl hstraw
    · have hclose : provClose w.ctx = (w.ctx, .none) := by rw [provClose, closeSession, if_pos hs]
      rw [hclose, if_neg (by simp)]
      exact wifiProvPoll_step down start nowMs rfl rfl hstraw
  next => exact wifiProvPoll_step down start nowMs rfl rfl hstraw

theorem wifiCall_step (w : WifiProv) (call : WifiCall) : WifiStep w call (wifiCall w call) := by
  cases call with
  | tick down start nowMs => exact wifiProvTick_step w down start nowMs
  | login ok =>
    have hs := provLogin_step w.ctx ok
    simp only [wifiCall]
    generalize (provLogin w.ctx ok).1 = next at hs ⊢
    cases hs with
    | kept _ hstate _ hlast =>
      refine .kept _ hstate rfl fun hstraw => hlast ?_
      cases hstraw.1
      exact hstraw.2
    | dropped _ hlast hclosed =>
      cases hlast.1
      exact .dropped _ ⟨rfl, hlast⟩ hclosed
  | logout =>
    have hs := provCall_step w.ctx .logout
    simp only [wifiCall]
    simp only [provCall] at hs
    generalize provSessionLogout w.ctx = next at hs ⊢
    cases hs with
    | kept _ hstate => exact .kept _ hstate rfl (by simp [WifiStraw])
    | dropped _ hlast => cases hlast.1
  | finish => exact .kept _ rfl rfl (by simp [WifiStraw])

/-- One more call: where the portal ends up, and what the main loop is told of it. -/
theorem wifiRun_step (calls : List WifiCall) (call : WifiCall) :
    ∃ next evt, WifiStep (wifiRun calls) call (next, evt) ∧ wifiRun (calls ++ [call]) = next ∧
      ∀ e, told e (calls ++ [call]) = told e calls + if evt = e then 1 else 0 := by
  refine ⟨(wifiCall (wifiRun calls) call).1, (wifiCall (wifiRun calls) call).2,
    wifiCall_step (wifiRun calls) call, exec_concat .., fun e => ?_⟩
  simp [told, trace_concat, List.countP_append, List.countP_cons]

theorem PortalTold.concat {calls : List WifiCall} {call : WifiCall} (h : PortalTold calls)
    (hstraw : ¬WifiStraw (wifiRun calls, call)) : PortalTold (calls ++ [call]) := by
  obtain ⟨hrun, htold⟩ := h
  obtain ⟨next, evt, hs, hnext, htells⟩ := wifiRun_step calls call
  constructor
  · rw [hnext]
    cases hs with
    | kept _ hstate hup => rw [hstate, hup, hrun]
    | opened _ _ hopened hup => simp [hopened, hup]
    | closed _ _ hclosed hup => simp [hclosed, hup]
    | dropped _ hlast => exact absurd hlast hstraw
  · rw [htells, htells, hnext, htold]
    cases hs with
    | kept _ hstate => simp [ProvCtx.sessions, hstate]
    | opened _ hclosed hopened =>
      simp [ProvCtx.sessions_closed hclosed, ProvCtx.sessions_opened hopened]
    | closed _ hopened hclosed =>
      simp [ProvCtx.sessions_closed hclosed, ProvCtx.sessions_opened hopened]
    | dropped _ hlast => exact absurd hlast hstraw

/-- A last straw leaves the portal up with no session to close it. -/
theorem PortalTold.straw {calls : List WifiCall} {call : WifiCall} (h : PortalTold calls)
    (hstraw : WifiStraw (wifiRun calls, call)) : ¬PortalTold (calls ++ [call]) := by
  intro hafter
  have hopened : (wifiRun calls).ctx.state = .opened := hstraw.2.2.1
  obtain ⟨next, evt, hs, hnext, htells⟩ := wifiRun_step calls call
  have htold := hafter.told
  rw [htells, htells, hnext, h.told, ProvCtx.sessions_opened hopened] at htold
  cases hs with
  | kept _ _ _ hnot => exact hnot hstraw
  | opened _ _ _ _ hnot => exact hnot hstraw
  | closed _ _ _ _ hnot => exact hnot hstraw
  | dropped _ _ hclosed => simp [ProvCtx.sessions_closed hclosed] at htold

theorem portalTold_start : PortalTold [] := ⟨by simp [wifiProvInit, provInit], rfl⟩

theorem portalTold_of_no_straw {calls : List WifiCall}
    (h : ∀ p ∈ trace wifiStep wifiProvInit calls, ¬WifiStraw p) : PortalTold calls := by
  induction calls using List.reverseRecOn with
  | nil => exact portalTold_start
  | append_singleton calls call ih =>
    simp only [trace_concat, List.mem_append, List.mem_singleton] at h
    exact (ih fun p hp => h p (.inl hp)).concat (h _ (.inr rfl))

theorem portalTold_iff (calls : List WifiCall) :
    (∀ before after, calls = before ++ after → PortalTold before) ↔
      ∀ p ∈ trace wifiStep wifiProvInit calls, ¬WifiStraw p := by
  constructor
  · rintro h ⟨w, call⟩ hp hstraw
    obtain ⟨before, after, hcalls, rfl⟩ := mem_trace hp
    have hbefore := h before (call :: after) hcalls
    rw [List.append_cons] at hcalls
    exact hbefore.straw hstraw (h _ after hcalls)
  · intro h before after hcalls
    rw [hcalls] at h
    exact portalTold_of_no_straw fun p hp => h p (mem_trace_append hp after)

/-- Every session is torn down, at the level of the session logic and of the portal, exactly in the
runs in which no session ends by its fifth wrong login. -/
theorem session_teardown_iff (calls : List ProvCall) (t : Nat) (portal : List WifiCall) :
    ((provRun (calls ++ [.tick t])).state = .closed →
      (handed .openAp provInit (calls ++ [.tick t]) = handed .closeAp provInit (calls ++ [.tick t]) ↔
        ∀ p ∈ trace provStep provInit (calls ++ [.tick t]), ¬LastStraw p)) ∧
    ((∀ before after, portal = before ++ after → PortalTold before) ↔
      ∀ p ∈ trace wifiStep wifiProvInit portal, ¬WifiStraw p) :=
  ⟨handed_iff, portalTold_iff portal⟩

theorem session_teardown_timeout :
    handed .openAp provInit [.button true 0, .button true 5000, .tick 305000] =
      handed .closeAp provInit [.button true 0, .button true 5000, .tick 305000] :=
  ((session_teardown_iff [.button true 0, .button true 5000] 305000 []).1 (by decide +kernel)).mpr
    (by decide +kernel)

/-- Five wrong logins: the session is closed, and nobody was told to take the portal down. -/
theorem five_wrong_logins_leave_the_portal_up :
    (provRun ([.button true 0, .button true 5000] ++ List.replicate 5 (.login false) ++
        [.tick 6000])).state = .closed ∧
      handed .openAp provInit ([.button true 0, .button true 5000] ++
        List.replicate 5 (.login false) ++ [.tick 6000]) ≠
        handed .closeAp provInit ([.button true 0, .button true 5000] ++
          List.replicate 5 (.login false) ++ [.tick 6000]) ∧
      let calls := [.tick true ⟨none, false⟩ 0, .tick true ⟨some (ascii "gate"), true⟩ 5000] ++
        List.replicate 5 (.login false) ++ [.tick false ⟨none, false⟩ 6000]
      (wifiRun calls).ctx.state = .closed ∧ (wifiRun calls).running = true ∧
        told .opened calls = 1 ∧ told .closed calls = 0 := by
  decide +kernel

end GateAccess
