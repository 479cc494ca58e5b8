import GateAccess.RadioWants

namespace GateAccess

/-- What the calls so far have asked of the radio. A scan and a credential test ask for nothing that
lasts. -/
structure Wishes where
  ap : Option (List UInt8 × List UInt8)
  sta : Bool
  deriving DecidableEq

def Wishes.after (w : Wishes) : RadioRequest → Wishes
  | .staStart (some _) => { w with sta := true }
  | .staStop => { w with sta := false }
  | .apUp password mac =>
    if apPassphraseTaken password then { w with ap := some (apSsid mac, password.getD []) } else w
  | .apDown => { w with ap := none }
  | .staStart none | .scan | .tryCredentials _ _ _ _ | .tick _ | .event _ => w

def wishes (calls : List RadioRequest) : Wishes := calls.foldl Wishes.after ⟨none, false⟩

/-- The driver is in the mode that serves what the statics want, and on just when they want anything. -/
structure RadioSettled (r : NetRadio) : Prop where
  flag : FlagRight r
  started : r.wifiStarted = (wantedMode r.wantAp r.link.wantSta).isSome
  mode : ∀ mode, wantedMode r.wantAp r.link.wantSta = some mode → (onAir r.log).mode = some mode

structure Obeys (w : Wishes) (r : NetRadio) : Prop where
  wantAp : r.wantAp = w.ap.isSome
  wantSta : r.link.wantSta = w.sta
  settled : RadioSettled r
  config : ∀ cfg, w.ap = some cfg → (onAir r.log).ap = some cfg

/-- Every call of the driver succeeds. -/
abbrev works : Nat → Bool := fun _ => true

variable {w : Wishes} {r r' : NetRadio}

/-- Neither what is wanted nor what the radio does has changed. -/
structure SameRadio (r r' : NetRadio) : Prop where
  wantAp : r'.wantAp = r.wantAp
  wantSta : r'.link.wantSta = r.link.wantSta
  wifiStarted : r'.wifiStarted = r.wifiStarted
  started : (onAir r'.log).started = (onAir r.log).started
  mode : (onAir r'.log).mode = (onAir r.log).mode

theorem SameRadio.refl (r : NetRadio) : SameRadio r r := ⟨rfl, rfl, rfl, rfl, rfl⟩

theorem SameRadio.trans {a b c : NetRadio} (h : SameRadio a b) (h' : SameRadio b c) :
    SameRadio a c :=
  ⟨h'.1.trans h.1, h'.2.trans h.2, h'.3.trans h.3, h'.4.trans h.4, h'.5.trans h.5⟩

theorem SameRadio.settled (h : SameRadio r r') (hr : RadioSettled r) : RadioSettled r' where
  flag := h.started.trans (hr.flag.trans h.wifiStarted.symm)
  started := by
    rw [h.wifiStarted, h.wantAp, h.wantSta]
    exact hr.started
  mode mode hmode := by
    rw [h.wantAp, h.wantSta] at hmode
    exact h.mode.trans (hr.mode mode hmode)

/-- The calls that leave mode and power alone. -/
def RadioCall.Plain : RadioCall → Prop
  | .setMode _ | .start | .stop => False
  | _ => True

theorem SameRadio.call (h : SameRadio r r') (call : RadioCall) (hcall : call.Plain) :
    SameRadio r (r'.call works call).1 := by
  have hair : (onAir (r'.call works call).1.log).started = (onAir r'.log).started ∧
      (onAir (r'.call works call).1.log).mode = (onAir r'.log).mode := by
    rw [onAir_call]
    cases call <;> first | exact ⟨rfl, rfl⟩ | exact hcall.elim
  exact h.trans ⟨rfl, rfl, rfl, hair.1, hair.2⟩

theorem SameRadio.link (h : SameRadio r r') (f : NetLink → NetLink)
    (hsta : (f r'.link).wantSta = r'.link.wantSta) : SameRadio r { r' with link := f r'.link } :=
  h.trans ⟨rfl, hsta, rfl, rfl, rfl⟩

/-- The two bits of the event group are cleared. -/
theorem SameRadio.cleared (h : SameRadio r r') :
    SameRadio r { r' with link := { r'.link with gotIp := false, staFail := false } } :=
  h.link (fun l => { l with gotIp := false, staFail := false }) rfl

theorem onDisconnected_wantSta (l : NetLink) (nowMs : UInt32) :
    (onDisconnected l nowMs).wantSta = l.wantSta := by
  simp only [onDisconnected]
  split_ifs <;> rfl

theorem netLinkTick_wantSta (l : NetLink) (nowMs : UInt32) :
    (netLinkTick l nowMs).1.wantSta = l.wantSta := by
  unfold netLinkTick
  split_ifs <;> rfl

theorem SameRadio.event (h : SameRadio r r') (e : RadioEvent) :
    SameRadio r (onRadioEvent works r' e) := by
  cases e with
  | staStart =>
    simp only [onRadioEvent]
    split
    next => exact h.call _ trivial
    next => exact h
  | disconnected nowMs => exact h.link (onDisconnected · nowMs) (onDisconnected_wantSta _ _)
  | gotIp => exact h.link onGotIp rfl

theorem SameRadio.tick (r : NetRadio) (nowMs : UInt32) :
    SameRadio r (netLinkTickRadio works r nowMs) := by
  have hticked := (SameRadio.refl r).link (fun l => (netLinkTick l nowMs).1)
    (netLinkTick_wantSta _ _)
  unfold netLinkTickRadio
  dsimp only
  split
  next => exact hticked.call .connect trivial
  next => exact hticked

theorem SameRadio.waitForBits (h : SameRadio r r') (during : List RadioEvent) :
    SameRadio r (waitForBits works r' during).1 := by
  induction during generalizing r' with
  | nil => exact h.cleared
  | cons e during ih =>
    simp only [GateAccess.waitForBits]
    split_ifs
    · exact h.cleared
    · exact ih (h.event e)

theorem SameRadio.ensureWifi (h : SameRadio r r') : SameRadio r (ensureWifi works r').1 := by
  have hcall : SameRadio r (r'.call works .init).1 := h.call _ trivial
  rw [ensureWifi_fst]
  split
  next => exact h
  next => exact hcall.trans ⟨rfl, rfl, rfl, rfl, rfl⟩

theorem ensureWifi_works : (ensureWifi works r).2 = true := by
  unfold ensureWifi
  split <;> rfl

theorem okThen_works {done : NetRadio × Bool} {next : NetRadio → NetRadio × Bool}
    (h : done.2 = true) : okThen done next = next done.1 := by
  rw [okThen, if_pos h]

theorem call_works (call : RadioCall) : (r.call works call).2 = true := rfl

theorem applyMode_works : (applyMode works r).2 = true := by
  unfold applyMode
  split_ifs <;> rfl

theorem ensureStarted_works : (ensureStarted works r).2 = true := by
  unfold ensureStarted
  split <;> rfl

theorem Moves.wantAp_eq {ok : Nat → Bool} {join : Bool} (h : Moves ok false join r r') :
    r'.wantAp = r.wantAp := by
  induction h with
  | refl => rfl
  | wantAp _ hap => cases hap
  | apConfig _ _ hap => cases hap
  | applyMode _ ih => exact applyMode_wantAp.trans ih
  | ensureStarted _ ih => exact ensureStarted_wantAp.trans ih
  | ensureWifi _ ih => exact ensureWifi_wantAp.trans ih
  | link _ _ _ ih => exact ih
  | staConfig _ _ ih => exact ih
  | connect _ _ ih => exact ih
  | disconnect _ ih => exact ih
  | scanStart _ ih => exact ih
  | scanRecords _ ih => exact ih

theorem settled_applyMode (hflag : FlagRight r)
    (h : ∀ mode, wantedMode r.wantAp r.link.wantSta = some mode → r.wifiStarted = true) :
    RadioSettled (applyMode works r).1 := by
  refine ⟨hflag.applyMode, ?_, fun mode hmode => ?_⟩
  · rw [applyMode_wantAp, applyMode_link]
    cases hwanted : wantedMode r.wantAp r.link.wantSta with
    | some mode => rw [applyMode_mode hwanted]; exact h mode hwanted
    | none => rw [applyMode_stop hwanted]; simp
  · rw [applyMode_wantAp, applyMode_link] at hmode
    rw [applyMode_mode hmode, onAir_call]
    rfl

/-- The mode first and the start last, whatever is called in between. -/
theorem settled_ensureStarted (hflag : FlagRight r) {mode : WifiMode}
    (hmode : wantedMode r.wantAp r.link.wantSta = some mode)
    (h : SameRadio (applyMode works r).1 r') : RadioSettled (ensureStarted works r').1 := by
  have hap : r'.wantAp = r.wantAp := h.wantAp.trans applyMode_wantAp
  have hsta : r'.link.wantSta = r.link.wantSta := h.wantSta.trans (by rw [applyMode_link])
  have hflag' : FlagRight r' := h.started.trans ((hflag.applyMode).trans h.wifiStarted.symm)
  refine ⟨hflag'.ensureStarted, ?_, fun mode' hmode' => ?_⟩
  · rw [ensureStarted_wantAp, ensureStarted_link, hap, hsta, hmode]
    exact ensureStarted_started ensureStarted_works
  · rw [ensureStarted_wantAp, ensureStarted_link, hap, hsta, hmode] at hmode'
    rw [ensureStarted_mode, h.mode, applyMode_mode hmode, onAir_call, ← hmode']
    rfl

theorem wantedMode_sta (wantAp : Bool) : ∃ mode, wantedMode wantAp true = some mode := by
  cases wantAp
  · exact ⟨.sta, rfl⟩
  · exact ⟨.apsta, rfl⟩

theorem wantedMode_ap (wantSta : Bool) : ∃ mode, wantedMode true wantSta = some mode := by
  cases wantSta
  · exact ⟨.ap, rfl⟩
  · exact ⟨.apsta, rfl⟩

theorem RadioSettled.ensureWifi (h : RadioSettled r) : RadioSettled (ensureWifi works r).1 :=
  (SameRadio.refl r).ensureWifi.settled h

/-- A station that is wanted comes up, and whoever wanted it before keeps the mode it needs. -/
theorem raiseSta_settled (h : RadioSettled r) (f : NetLink → NetLink)
    (hsta : (f r.link).wantSta = true) {r' : NetRadio}
    (hr' : SameRadio (applyMode works { r with link := f r.link }).1 r') :
    RadioSettled (ensureStarted works r').1 ∧ (ensureStarted works r').1.link.wantSta = true := by
  obtain ⟨mode, hmode⟩ := wantedMode_sta r.wantAp
  have hwanted : wantedMode r.wantAp (f r.link).wantSta = some mode := hsta ▸ hmode
  refine ⟨settled_ensureStarted (r := { r with link := f r.link }) h.flag hwanted hr', ?_⟩
  · rw [ensureStarted_link, hr'.wantSta, applyMode_link]
    exact hsta

theorem staStart_settled (h : RadioSettled r) (creds : List UInt8 × List UInt8) :
    RadioSettled (netLinkStaStart works r (some creds)).1 ∧
      (netLinkStaStart works r (some creds)).1.link.wantSta = true := by
  let join (l : NetLink) := { l with wantSta := true, wantJoin := true }
  have hcall : SameRadio (applyMode works { (ensureWifi works r).1 with
      link := join (ensureWifi works r).1.link }).1 _ :=
    (SameRadio.refl _).call (.setStaConfig (staConfigure creds.1 (some creds.2))) trivial
  obtain ⟨hraised, hsta⟩ := raiseSta_settled h.ensureWifi join rfl hcall
  simp only [netLinkStaStart, ensureWifi_works, Bool.not_true, Bool.false_eq_true, if_false,
    okThen_works applyMode_works, okThen_works (call_works _), okThen_works ensureStarted_works]
  split
  next => exact ⟨((SameRadio.refl _).call .connect trivial).settled hraised, hsta⟩
  next => exact ⟨hraised, hsta⟩

/-- What still wants the radio finds it running. -/
theorem RadioSettled.running (h : RadioSettled r) {mode : WifiMode}
    (hmode : wantedMode r.wantAp r.link.wantSta = some mode) : r.wifiStarted = true := by
  rw [h.started, hmode]
  rfl

/-- Giving up the station. -/
theorem dropSta_settled (h : RadioSettled r) (hsta : r.link.wantSta = true) (f : NetLink → NetLink)
    {r' : NetRadio} (hr' : SameRadio { r with link := f r.link } r') :
    RadioSettled (applyMode works r').1 := by
  obtain ⟨mode, hmode⟩ := wantedMode_sta r.wantAp
  have hrunning : r'.wifiStarted = true := hr'.wifiStarted.trans (h.running (hsta ▸ hmode))
  exact settled_applyMode (hr'.started.trans (h.flag.trans hr'.wifiStarted.symm)) fun _ _ => hrunning

theorem staStop_settled (h : RadioSettled r) :
    RadioSettled (netLinkStaStop works r) ∧ (netLinkStaStop works r).link.wantSta = false := by
  unfold netLinkStaStop
  split
  next hsta => exact ⟨h, by simpa using hsta⟩
  next hsta =>
    let leave (l : NetLink) :=
      { l with wantSta := false, wantJoin := false, staConnected := false }
    have hcall : SameRadio { r with link := leave r.link }
        (NetRadio.call works { r with link := leave r.link } .disconnect).1 :=
      (SameRadio.refl _).call _ trivial
    refine ⟨dropSta_settled h (by simpa using hsta) leave hcall, ?_⟩
    dsimp only
    rw [applyMode_link]
    rfl

theorem apDown_settled (h : RadioSettled r) :
    RadioSettled (netLinkApDown works r) ∧ (netLinkApDown works r).wantAp = false ∧
      (netLinkApDown works r).link.wantSta = r.link.wantSta := by
  unfold netLinkApDown
  split
  next hap => exact ⟨h, by simpa using hap, rfl⟩
  next hap =>
    obtain ⟨mode, hmode⟩ := wantedMode_ap r.link.wantSta
    have hap : r.wantAp = true := by simpa using hap
    refine ⟨settled_applyMode h.flag fun _ _ => h.running (hap ▸ hmode), applyMode_wantAp, ?_⟩
    rw [applyMode_link]

theorem apUp_settled (h : RadioSettled r) {password : CText} (hpass : apPassphraseTaken password = true)
    (mac : Bytes 6) :
    (netLinkApUp works r password mac).2 = some (apSsid mac) ∧
      RadioSettled (netLinkApUp works r password mac).1 ∧
      (netLinkApUp works r password mac).1.link.wantSta = r.link.wantSta := by
  have hflag : FlagRight { (ensureWifi works r).1 with wantAp := true } := h.ensureWifi.flag
  obtain ⟨mode, hmode⟩ := wantedMode_ap (ensureWifi works r).1.link.wantSta
  have hcall : SameRadio (applyMode works { (ensureWifi works r).1 with wantAp := true }).1 _ :=
    (SameRadio.refl _).call (.setApConfig (apSsid mac) (password.getD [])) trivial
  simp only [netLinkApUp, hpass, ensureWifi_works, Bool.not_true, Bool.false_eq_true, if_false,
    okThen_works applyMode_works, okThen_works (call_works _), ensureStarted_works, if_true]
  refine ⟨trivial, settled_ensureStarted hflag hmode hcall, ?_⟩
  rw [ensureStarted_link, hcall.wantSta, applyMode_link, ensureWifi_link]

theorem apUp_refused {ok : Nat → Bool} {password : CText} (h : ¬apPassphraseTaken password = true)
    {mac : Bytes 6} : netLinkApUp ok r password mac = (r, none) := by
  rw [netLinkApUp, if_pos (by simpa using h)]

theorem scan_settled (h : RadioSettled r) :
    RadioSettled (netLinkScan works r).1 ∧ (netLinkScan works r).1.link.wantSta = r.link.wantSta := by
  have hsta : (ensureWifi works r).1.link.wantSta = r.link.wantSta := by rw [ensureWifi_link]
  have hfound : ∀ r' : NetRadio, SameRadio r'
      ((r'.call works .scanStart).1.call works .scanRecords).1 :=
    fun r' => ((SameRadio.refl r').call .scanStart trivial).call .scanRecords trivial
  simp only [netLinkScan, ensureWifi_works, Bool.not_true, Bool.false_eq_true, if_false,
    okThen_works (call_works _)]
  split
  next hadded =>
    obtain ⟨hraised, hwant⟩ := raiseSta_settled h.ensureWifi (fun l => { l with wantSta := true }) rfl
      (.refl _)
    have hdone := (hfound _).settled hraised
    refine ⟨dropSta_settled hdone ((hfound _).wantSta.trans hwant)
      (fun l => { l with wantSta := false }) (.refl _), ?_⟩
    rw [applyMode_link, ← hsta]
    simpa using hadded.symm
  next => exact ⟨(hfound _).settled h.ensureWifi, (hfound _).wantSta.trans hsta⟩

theorem tryCredentials_settled (h : RadioSettled r) (ssid psk : List UInt8)
    (previous : Option (List UInt8 × List UInt8)) (during : List RadioEvent) :
    RadioSettled (netLinkTryCredentials works r ssid psk previous during).1 ∧
      (netLinkTryCredentials works r ssid psk previous during).1.link.wantSta = r.link.wantSta := by
  unfold netLinkTryCredentials
  split
  next => exact ⟨h, rfl⟩
  next =>
    simp only [ensureWifi_works, Bool.not_true, Bool.false_eq_true, if_false,
      okThen_works (call_works _)]
    have hsta : (ensureWifi works r).1.link.wantSta = r.link.wantSta := by rw [ensureWifi_link]
    have h₁ : RadioSettled (ensureWifi works r).1 := h.ensureWifi
    generalize (ensureWifi works r).1 = r₁ at h₁ hsta ⊢
    obtain ⟨h₂, hwant⟩ := raiseSta_settled h₁
      (fun l => { l with wantSta := true, wantJoin := true }) rfl (.refl _)
    generalize (ensureStarted works (applyMode works
      { r₁ with link := { r₁.link with wantSta := true, wantJoin := true } }).1).1 = r₂ at h₂ hwant ⊢
    let back (l : NetLink) := { l with wantSta := r₁.link.wantSta, wantJoin := r₁.link.wantJoin }
    have hrestored : ∀ r₃, SameRadio r₂ r₃ →
        let r₄ := (applyMode works { r₃ with link := back r₃.link }).1
        let r₅ := if r₁.link.wantJoin = true then (r₄.call works .connect).1 else r₄
        RadioSettled r₅ ∧ r₅.link.wantSta = r.link.wantSta := by
      intro r₃ h₃ r₄ r₅
      have h₄ : RadioSettled r₄ := dropSta_settled (h₃.settled h₂) (h₃.wantSta.trans hwant) back (.refl _)
      have hsta₄ : r₄.link.wantSta = r.link.wantSta := by
        rw [applyMode_link]
        exact hsta
      have h₅ : SameRadio r₄ r₅ := by
        unfold r₅
        split
        next => exact (SameRadio.refl r₄).call _ trivial
        next => exact .refl r₄
      exact ⟨h₅.settled h₄, h₅.wantSta.trans hsta₄⟩
    -- everything else the test does leaves mode and power alone
    have htested : ∀ cfg, SameRadio r₂ _ := fun cfg =>
      ((((((SameRadio.refl r₂).call .disconnect trivial).cleared).call (.setStaConfig cfg)
        trivial).call .connect trivial).waitForBits during).call .disconnect trivial
    cases previous with
    | none => exact hrestored _ (htested _)
    | some creds => exact hrestored _ ((htested _).call (.setStaConfig _) trivial)

theorem foldl_after_ap {d : OnAir} {new : List (RadioCall × Bool)}
    (h : ∀ e ∈ new, e.1.SparesAp) : (new.foldl OnAir.after d).ap = d.ap := by
  induction new generalizing d with
  | nil => rfl
  | cons e new ih =>
    have hone : (d.after e).ap = d.ap := by
      obtain ⟨call, done⟩ := e
      have hcall : call.SparesAp := h _ List.mem_cons_self
      cases done <;> cases call <;> first | rfl | exact hcall.elim
    rw [List.foldl_cons, ih fun e he => h e (List.mem_cons_of_mem _ he), hone]

/-- A call that is not about the access point leaves it as configured. -/
theorem Moves.config {ok : Nat → Bool} {join : Bool} (h : Moves ok false join r r')
    (hr : r.wantAp = true) : (onAir r'.log).ap = (onAir r.log).ap := by
  obtain ⟨-, new, hlog, hnew⟩ := h.spares hr
  rw [hlog, onAir, List.foldl_append]
  exact foldl_after_ap hnew

/-- One call, as far as the station is concerned. -/
theorem radioStep_station (h : RadioSettled r) (hsta : r.link.wantSta = w.sta) (call : RadioRequest) :
    RadioSettled (radioStep works r call) ∧ (radioStep works r call).link.wantSta = (w.after call).sta := by
  cases call with
  | staStart creds =>
    cases creds with
    | none => exact ⟨h, hsta⟩
    | some creds => exact staStart_settled h creds
  | staStop => exact staStop_settled h
  | scan =>
    obtain ⟨hsettled, hsame⟩ := scan_settled h
    exact ⟨hsettled, hsame.trans hsta⟩
  | tryCredentials ssid psk previous during =>
    obtain ⟨hsettled, hsame⟩ := tryCredentials_settled h ssid psk previous during
    exact ⟨hsettled, hsame.trans hsta⟩
  | tick nowMs =>
    have hsame := SameRadio.tick r nowMs
    exact ⟨hsame.settled h, hsame.wantSta.trans hsta⟩
  | event e =>
    have hsame := (SameRadio.refl r).event e
    exact ⟨hsame.settled h, hsame.wantSta.trans hsta⟩
  | apUp password mac =>
    simp only [radioStep, Wishes.after]
    split
    next hpass =>
      obtain ⟨-, hsettled, hsame⟩ := apUp_settled h hpass mac
      exact ⟨hsettled, hsame.trans hsta⟩
    next hpass =>
      rw [apUp_refused hpass]
      exact ⟨h, hsta⟩
  | apDown =>
    obtain ⟨hsettled, -, hsame⟩ := apDown_settled h
    exact ⟨hsettled, hsame.trans hsta⟩

theorem radioStep_obeys (h : Obeys w r) (call : RadioRequest) :
    Obeys (w.after call) (radioStep works r call) := by
  obtain ⟨hsettled, hsta⟩ := radioStep_station h.settled h.wantSta call
  have hother : call.ofAp = false → (w.after call).ap = w.ap →
      Obeys (w.after call) (radioStep works r call) := by
    intro hof hap
    have hmoves : Moves works call.ofAp call.joins r (radioStep works r call) := radioStep_moves r call
    rw [hof] at hmoves
    refine ⟨?_, hsta, hsettled, fun cfg hcfg => ?_⟩
    · rw [hmoves.wantAp_eq, hap]
      exact h.wantAp
    · rw [hap] at hcfg
      have hwanted : r.wantAp = true := by rw [h.wantAp, hcfg]; rfl
      exact (hmoves.config hwanted).trans (h.config cfg hcfg)
  cases call with
  | staStart creds => cases creds <;> exact hother rfl rfl
  | staStop => exact hother rfl rfl
  | scan => exact hother rfl rfl
  | tryCredentials ssid psk previous during => exact hother rfl rfl
  | tick nowMs => exact hother rfl rfl
  | event e => exact hother rfl rfl
  | apUp password mac =>
    by_cases hpass : apPassphraseTaken password = true
    · obtain ⟨hup, -, -⟩ := apUp_settled h.settled hpass mac
      obtain ⟨hwanted, -, hbeacons⟩ := apUp_beacons h.settled.flag hup
      have hwish : (w.after (.apUp password mac)).ap = some (apSsid mac, password.getD []) := by
        simp [Wishes.after, hpass]
      refine ⟨by rw [hwish]; exact hwanted, hsta, hsettled, fun cfg hcfg => ?_⟩
      rw [← hcfg, hwish]
      exact hbeacons.config
    · rw [radioStep, apUp_refused hpass, Wishes.after, if_neg hpass]
      exact h
  | apDown =>
    exact ⟨(apDown_settled h.settled).2.1, hsta, hsettled, fun cfg hcfg => by cases hcfg⟩

theorem radioRun_obeys (calls : List RadioRequest) : Obeys (wishes calls) (radioRun works calls) := by
  have hstart : Obeys ⟨none, false⟩ netRadioInit :=
    ⟨rfl, rfl, ⟨rfl, rfl, fun mode h => by cases h⟩, fun cfg h => by cases h⟩
  have steps : ∀ (calls : List RadioRequest) (w : Wishes) (r : NetRadio), Obeys w r →
      Obeys (calls.foldl Wishes.after w) (exec (radioStep works) r calls) := by
    intro calls
    induction calls with
    | nil => exact fun w r h => h
    | cons call calls ih => exact fun w r h => ih _ _ (radioStep_obeys h call)
  exact steps calls _ _ hstart

theorem radioRun_idle {ok : Nat → Bool} {calls : List RadioRequest}
    (hcalls : ∀ call ∈ calls, call.joins = false) (hr : r.link.wantJoin = false) :
    Adds (· ≠ .connect) r (exec (radioStep ok) r calls) := by
  induction calls generalizing r with
  | nil => exact Adds.refl _ r
  | cons call calls ih =>
    have hmoves : Moves ok call.ofAp call.joins r (radioStep ok r call) := radioStep_moves r call
    rw [hcalls call List.mem_cons_self] at hmoves
    obtain ⟨hidle, hadds⟩ := hmoves.idle hr
    exact hadds.trans (ih (fun call h => hcalls call (List.mem_cons_of_mem _ h)) hidle)

/-- With a driver that does what it is told, the radio is after every call what was last asked of it: on
just when the access point or the station is wanted, in the mode that serves both, and under the
name and passphrase the access point was last given; a scan or a credential test asks for none of
these. And before there are credentials to join with no call connects, whatever the driver does. -/
theorem radio_follows_wishes (calls : List RadioRequest) :
    (let w := wishes calls
      let d := onAir (radioRun works calls).log
      d.started = (w.ap.isSome || w.sta) ∧
        (∀ mode, wantedMode w.ap.isSome w.sta = some mode → d.mode = some mode) ∧
        ∀ cfg, w.ap = some cfg → d.ap = some cfg) ∧
      ∀ ok, (∀ call ∈ calls, call.joins = false) →
        ∀ e ∈ (radioRun ok calls).log, e.1 ≠ .connect := by
  have h := radioRun_obeys calls
  refine ⟨⟨?_, ?_, h.config⟩, fun ok hcalls e he => ?_⟩
  · rw [h.settled.flag, h.settled.started, h.wantAp, h.wantSta]
    cases (wishes calls).ap.isSome <;> cases (wishes calls).sta <;> rfl
  · rw [← h.wantAp, ← h.wantSta]
    exact h.settled.mode
  · have hadds : Adds (· ≠ .connect) netRadioInit (radioRun ok calls) := radioRun_idle hcalls rfl
    obtain ⟨new, hlog, hnew⟩ := hadds
    rw [hlog] at he
    exact hnew e he

end GateAccess
