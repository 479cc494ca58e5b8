import GateAccess.RadioSettles
import GateAccess.WifiProv

namespace GateAccess

/-- The portal and the radio that it borrows. -/
structure PortalRadio where
  prov : WifiProv
  radio : NetRadio

def portalRadioInit : PortalRadio := ⟨wifiProvInit, netRadioInit⟩

-- the driver's answers, the passphrase of the access point and the address of its interface
variable (ok : Nat → Bool) (password : CText) (mac : Bytes 6)

/-- `prov_ap_start`, with the radio. -/
def radioApStart (s : PortalRadio) (httpStarts : Bool) : PortalRadio × Bool :=
  if s.prov.running then (s, true)
  else
    let up := netLinkApUp ok s.radio password mac
    match up.2 with
    | none => ({ s with radio := up.1 }, false)
    | some ssid =>
      if httpStarts then (⟨{ s.prov with ssid := ssid, running := true }, up.1⟩, true)
      else (⟨{ s.prov with ssid := ssid }, netLinkApDown ok up.1⟩, false)

/-- `prov_ap_stop`, with the radio. -/
def radioApStop (s : PortalRadio) : PortalRadio :=
  if !s.prov.running then s
  else ⟨{ s.prov with running := false }, netLinkApDown ok s.radio⟩

def PortalRadio.unnamed (s : PortalRadio) : PortalRadio := { s with prov := { s.prov with ssid := [] } }

def PortalRadio.withCtx (s : PortalRadio) (ctx : ProvCtx) : PortalRadio :=
  { s with prov := { s.prov with ctx := ctx } }

/-- The part of `wifi_prov_tick` after the finish request, with the radio. -/
def radioPoll (s : PortalRadio) (down httpStarts : Bool) (nowMs : UInt32) : PortalRadio :=
  let pressed := provButton s.prov.ctx down nowMs
  let acted := if pressed.2 = .none then provTick pressed.1 nowMs else pressed
  let s := s.withCtx acted.1
  match acted.2 with
  | .openAp =>
    let started := radioApStart ok password mac s httpStarts
    if started.2 then started.1
    else (started.1.withCtx (provClose started.1.prov.ctx).1).unnamed
  | .closeAp => (radioApStop ok s).unnamed
  | .none => s

/-- `wifi_prov_tick`, with the radio. -/
def radioTick (s : PortalRadio) (down httpStarts : Bool) (nowMs : UInt32) : PortalRadio :=
  if s.prov.finishRequested then
    let closed := provClose s.prov.ctx
    let s := { s with prov := { s.prov with finishRequested := false, ctx := closed.1 } }
    if closed.2 = .closeAp then (radioApStop ok s).unnamed
    else radioPoll ok password mac s down httpStarts nowMs
  else radioPoll ok password mac s down httpStarts nowMs

/-- A tick of the main loop, what a request does to the session, or anything that is done with the
station: a start, a scan, a test, the retries, the driver's own events. -/
inductive AirEvent
  | tick (down httpStarts : Bool) (nowMs : UInt32)
  | login (credentialsOk : Bool)
  | logout
  | finish
  | station (call : RadioRequest) (isStation : call.ofAp = false)

def airStep (s : PortalRadio) : AirEvent → PortalRadio
  | .tick down httpStarts nowMs => radioTick ok password mac s down httpStarts nowMs
  | .login credentialsOk => { s with prov := wifiStep s.prov (.login credentialsOk) }
  | .logout => { s with prov := wifiStep s.prov .logout }
  | .finish => { s with prov := wifiStep s.prov .finish }
  | .station call _ => { s with radio := radioStep ok s.radio call }

abbrev airRun (events : List AirEvent) : PortalRadio :=
  exec (airStep ok password mac) portalRadioInit events

/-- The event as `wifi_prov.c` sees it. -/
def wifiCallsOf (s : PortalRadio) : AirEvent → List WifiCall
  | .tick down httpStarts nowMs =>
    [.tick down ⟨(netLinkApUp ok s.radio password mac).2, httpStarts⟩ nowMs]
  | .login credentialsOk => [.login credentialsOk]
  | .logout => [.logout]
  | .finish => [.finish]
  | .station _ _ => []

abbrev airCalls (events : List AirEvent) : List WifiCall :=
  logOf (airStep ok password mac) (wifiCallsOf ok password mac) portalRadioInit events

variable {ok password mac} {s : PortalRadio}

theorem radioApStart_prov (httpStarts : Bool) :
    (radioApStart ok password mac s httpStarts).1.prov =
        (provApStart s.prov ⟨(netLinkApUp ok s.radio password mac).2, httpStarts⟩).1 ∧
      (radioApStart ok password mac s httpStarts).2 =
        (provApStart s.prov ⟨(netLinkApUp ok s.radio password mac).2, httpStarts⟩).2 := by
  unfold radioApStart provApStart
  split
  next => exact ⟨rfl, rfl⟩
  next =>
    dsimp only
    cases (netLinkApUp ok s.radio password mac).2 with
    | none => exact ⟨rfl, rfl⟩
    | some ssid => cases httpStarts <;> exact ⟨rfl, rfl⟩

theorem radioApStop_prov : (radioApStop ok s).prov = provApStop s.prov := by
  unfold radioApStop provApStop
  split
  next hdown =>
    have hrunning : s.prov.running = false := by simpa using hdown
    rw [← hrunning]
  next => rfl

theorem radioPoll_prov (down httpStarts : Bool) (nowMs : UInt32) :
    (radioPoll ok password mac s down httpStarts nowMs).prov =
      (wifiProvPoll s.prov down ⟨(netLinkApUp ok s.radio password mac).2, httpStarts⟩ nowMs).1 := by
  unfold radioPoll wifiProvPoll
  simp only
  generalize (if (provButton s.prov.ctx down nowMs).2 = .none then
    provTick (provButton s.prov.ctx down nowMs).1 nowMs else provButton s.prov.ctx down nowMs) = acted
  rcases acted with ⟨ctx, action⟩
  cases action with
  | none => rfl
  | closeAp => simp [PortalRadio.unnamed, PortalRadio.withCtx, radioApStop_prov]
  | openAp =>
    obtain ⟨hprov, hflag⟩ :=
      @radioApStart_prov ok password mac (s.withCtx ctx) httpStarts
    have hctx : (s.withCtx ctx).prov = { s.prov with ctx := ctx } := rfl
    have hradio : (s.withCtx ctx).radio = s.radio := rfl
    rw [hctx, hradio] at hprov hflag
    by_cases hok : (radioApStart ok password mac (s.withCtx ctx) httpStarts).2 = true
    · simp only
      rw [if_pos hok, if_pos (hflag.symm.trans hok)]
      exact hprov
    · simp only
      rw [if_neg hok, if_neg fun h => hok (hflag.trans h), ← hprov]
      rfl

/-- With the radio left out the portal is `wifi_prov.c`. -/
theorem radioTick_prov (down httpStarts : Bool) (nowMs : UInt32) :
    (radioTick ok password mac s down httpStarts nowMs).prov =
      (wifiProvTick s.prov down ⟨(netLinkApUp ok s.radio password mac).2, httpStarts⟩ nowMs).1 := by
  unfold radioTick wifiProvTick
  split
  next =>
    simp only
    split
    next => simp [PortalRadio.unnamed, radioApStop_prov]
    next => rw [radioPoll_prov]
  next => exact radioPoll_prov down httpStarts nowMs

theorem airRun_prov (events : List AirEvent) :
    (airRun ok password mac events).prov = wifiRun (airCalls ok password mac events) := by
  have steps : ∀ (events : List AirEvent) (s : PortalRadio),
      (exec (airStep ok password mac) s events).prov = exec wifiStep s.prov
        (logOf (airStep ok password mac) (wifiCallsOf ok password mac) s events) := by
    intro events
    induction events with
    | nil => exact fun s => rfl
    | cons e events ih =>
      intro s
      rw [exec_cons, ih, logOf, exec_append]
      congr 1
      cases e with
      | tick down httpStarts nowMs => exact radioTick_prov down httpStarts nowMs
      | login credentialsOk => rfl
      | logout => rfl
      | finish => rfl
      | station call isStation => rfl
  exact steps events portalRadioInit

/-- A tick does nothing to the radio but raise the access point and take it down. -/
theorem radioTick_keeps {P : PortalRadio → Prop}
    (hprov : ∀ s prov, prov.running = s.prov.running → P s → P { s with prov := prov })
    (hstart : ∀ s httpStarts, P s → P (radioApStart ok password mac s httpStarts).1)
    (hstop : ∀ s, P s → P (radioApStop ok s)) (h : P s) (down httpStarts : Bool)
    (nowMs : UInt32) : P (radioTick ok password mac s down httpStarts nowMs) := by
  have hpoll : ∀ s, P s → P (radioPoll ok password mac s down httpStarts nowMs) := by
    intro s h
    unfold radioPoll
    simp only
    generalize (if (provButton s.prov.ctx down nowMs).2 = .none then
      provTick (provButton s.prov.ctx down nowMs).1 nowMs else provButton s.prov.ctx down nowMs) = acted
    have hctx : P (s.withCtx acted.1) := hprov s _ rfl h
    cases acted.2 with
    | none => exact hctx
    | closeAp => exact hprov _ _ rfl (hstop _ hctx)
    | openAp =>
      have hstarted := hstart _ httpStarts hctx
      dsimp only
      split
      next => exact hstarted
      next => exact hprov _ _ rfl (hprov _ _ rfl hstarted)
  unfold radioTick
  split
  next =>
    dsimp only
    have hclosed : P { s with prov := { s.prov with
        finishRequested := false, ctx := (provClose s.prov.ctx).1 } } := hprov s _ rfl h
    split
    next => exact hprov _ _ rfl (hstop _ hclosed)
    next => exact hpoll _ hclosed
  next => exact hpoll s h

/-- The access point is wanted while the portal is up, and then it is on the air. -/
structure Borrowed (password : CText) (mac : Bytes 6) (s : PortalRadio) : Prop where
  wantAp : s.radio.wantAp = s.prov.running
  flag : FlagRight s.radio
  beacons : s.prov.running = true →
    (onAir s.radio.log).Beacons (apSsid mac) (password.getD [])

theorem apUp_none {r : NetRadio} (h : (netLinkApUp ok r password mac).2 = none)
    (hr : r.wantAp = false) : (netLinkApUp ok r password mac).1.wantAp = false := by
  unfold netLinkApUp at h ⊢
  split
  next => exact hr
  next htaken =>
    rw [if_neg htaken] at h
    dsimp only at h ⊢
    split
    next => rw [ensureWifi_wantAp]; exact hr
    next hinit =>
      rw [if_neg hinit] at h
      split
      next hstarted => simp [hstarted] at h
      next => exact applyMode_wantAp

theorem apDown_wantAp (ok : Nat → Bool) (r : NetRadio) : (netLinkApDown ok r).wantAp = false := by
  unfold netLinkApDown
  split
  next hap => simpa using hap
  next => exact applyMode_wantAp

theorem Borrowed.start (h : Borrowed password mac s) (httpStarts : Bool) :
    Borrowed password mac (radioApStart ok password mac s httpStarts).1 := by
  have hflag : FlagRight (netLinkApUp ok s.radio password mac).1 := h.flag.apUp password mac
  unfold radioApStart
  split
  next => exact h
  next hdown =>
    have hdown : s.prov.running = false := by simpa using hdown
    dsimp only
    cases hup : (netLinkApUp ok s.radio password mac).2 with
    | none =>
      exact ⟨(apUp_none hup (h.wantAp.trans hdown)).trans hdown.symm, hflag,
        fun hrun => absurd hrun (by simp [hdown])⟩
    | some ssid =>
      obtain ⟨hwanted, rfl, hbeacons⟩ := apUp_beacons h.flag hup
      cases httpStarts with
      | true => exact ⟨hwanted, hflag, fun _ => hbeacons⟩
      | false =>
        exact ⟨(apDown_wantAp ok _).trans hdown.symm, hflag.apDown,
          fun hrun => absurd hrun (by simp [hdown])⟩

theorem Borrowed.stop (h : Borrowed password mac s) : Borrowed password mac (radioApStop ok s) := by
  unfold radioApStop
  split
  next => exact h
  next => exact ⟨apDown_wantAp ok _, h.flag.apDown, fun hrun => by cases hrun⟩

theorem Borrowed.step (h : Borrowed password mac s) (e : AirEvent) :
    Borrowed password mac (airStep ok password mac s e) := by
  cases e with
  | tick down httpStarts nowMs =>
    refine radioTick_keeps (fun s prov hrun h => ?_) (fun s b h => h.start b) (fun s h => h.stop) h
      down httpStarts nowMs
    exact ⟨h.wantAp.trans hrun.symm, h.flag, fun hup => h.beacons (hrun ▸ hup)⟩
  | login credentialsOk => exact ⟨h.wantAp, h.flag, h.beacons⟩
  | logout => exact ⟨h.wantAp, h.flag, h.beacons⟩
  | finish => exact ⟨h.wantAp, h.flag, h.beacons⟩
  | station call isStation =>
    have hmoves : Moves ok call.ofAp call.joins s.radio (radioStep ok s.radio call) :=
      radioStep_moves s.radio call
    rw [isStation] at hmoves
    refine ⟨hmoves.wantAp_eq.trans h.wantAp, hmoves.flag h.flag, fun hup => ?_⟩
    obtain ⟨-, new, hlog, hnew⟩ := hmoves.spares (h.wantAp.trans hup)
    change (onAir (radioStep ok s.radio call).log).Beacons _ _
    rw [hlog, onAir, List.foldl_append]
    exact (h.beacons hup).foldl hnew

theorem airRun_borrowed (ok : Nat → Bool) (password : CText) (mac : Bytes 6) (events : List AirEvent) :
    Borrowed password mac (airRun ok password mac events) := by
  have hstart : Borrowed password mac portalRadioInit := ⟨rfl, rfl, fun hrun => by cases hrun⟩
  exact exec_invariant (fun s e h => h.step e) hstart events

theorem settled_step {s : PortalRadio} (h : RadioSettled s.radio) (e : AirEvent) :
    RadioSettled (airStep works password mac s e).radio := by
  have hup : ∀ r, RadioSettled r → RadioSettled (netLinkApUp works r password mac).1 := by
    intro r h
    by_cases hpass : apPassphraseTaken password = true
    · exact (apUp_settled h hpass mac).2.1
    · rw [apUp_refused hpass]
      exact h
  cases e with
  | tick down httpStarts nowMs =>
    refine radioTick_keeps (P := fun s => RadioSettled s.radio) (fun s prov _ h => h) (fun s b h => ?_)
      (fun s h => ?_) h down httpStarts nowMs
    · unfold radioApStart
      split
      next => exact h
      next =>
        dsimp only
        cases (netLinkApUp works s.radio password mac).2 with
        | none => exact hup _ h
        | some ssid =>
          cases b with
          | true => exact hup _ h
          | false => exact (apDown_settled (hup _ h)).1
    · unfold radioApStop
      split
      next => exact h
      next => exact (apDown_settled h).1
  | login credentialsOk => exact h
  | logout => exact h
  | finish => exact h
  | station call _ => exact (radioStep_station (w := ⟨none, s.radio.link.wantSta⟩) h rfl call).1

theorem airRun_settled (password : CText) (mac : Bytes 6) (events : List AirEvent) :
    RadioSettled (airRun works password mac events).radio := by
  have hstart : RadioSettled portalRadioInit.radio := ⟨rfl, rfl, fun mode h => by cases h⟩
  exact exec_invariant (I := fun s : PortalRadio => RadioSettled s.radio) (fun s e h => settled_step h e) hstart events

/-- While a provisioning session is open its access point is on the air, under the name and the
passphrase of the firmware, whatever requests and station do in the meantime and however the driver
answers. With a driver that does what it is told it is on the air at no other time. Fifth wrong
logins excepted, which end a session without telling the portal. -/
theorem portal_on_air (password : CText) (mac : Bytes 6) (events : List AirEvent) :
    (∀ ok, (∀ p ∈ trace wifiStep wifiProvInit (airCalls ok password mac events), ¬WifiStraw p) →
      (airRun ok password mac events).prov.ctx.state = .opened →
      (onAir (airRun ok password mac events).radio.log).Beacons (apSsid mac) (password.getD [])) ∧
    ((∀ p ∈ trace wifiStep wifiProvInit (airCalls works password mac events), ¬WifiStraw p) →
      (airRun works password mac events).prov.ctx.state ≠ .opened → ∀ ssid key,
      ¬(onAir (airRun works password mac events).radio.log).Beacons ssid key) := by
  have hup : ∀ ok, (∀ p ∈ trace wifiStep wifiProvInit (airCalls ok password mac events),
      ¬WifiStraw p) → ((airRun ok password mac events).prov.running = true ↔
        (airRun ok password mac events).prov.ctx.state = .opened) := by
    intro ok hstraws
    rw [airRun_prov]
    exact (portalTold_of_no_straw hstraws).running
  refine ⟨fun ok hstraws hopened => ?_, fun hstraws hclosed ssid key hbeacons => ?_⟩
  · exact (airRun_borrowed ok password mac events).beacons ((hup ok hstraws).mpr hopened)
  · have hap : (airRun works password mac events).radio.wantAp = false := by
      rw [(airRun_borrowed works password mac events).wantAp, ← Bool.not_eq_true]
      exact fun hrun => hclosed ((hup works hstraws).mp hrun)
    have h := airRun_settled password mac events
    generalize (airRun works password mac events).radio = r at hbeacons hap h
    have hstarted := h.flag.symm.trans hbeacons.started
    have hmode := h.mode
    rw [h.started, hap] at hstarted
    rw [hap] at hmode
    cases hsta : r.link.wantSta with
    | false =>
      rw [hsta] at hstarted
      cases hstarted
    | true =>
      rw [hsta] at hmode
      rcases hbeacons.mode with hair | hair
      · rw [hmode .sta rfl] at hair
        cases hair
      · rw [hmode .sta rfl] at hair
        cases hair

end GateAccess
