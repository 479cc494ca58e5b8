import GateAccess.NetRadio

namespace GateAccess

/-- The access point is on the air under this name and passphrase. -/
structure OnAir.Beacons (d : OnAir) (ssid password : List UInt8) : Prop where
  started : d.started = true
  mode : d.mode = some .ap ∨ d.mode = some .apsta
  config : d.ap = some (ssid, password)

/-- What no beaconing access point notices. -/
def RadioCall.SparesAp : RadioCall → Prop
  | .stop | .setMode .sta | .setApConfig _ _ => False
  | _ => True

def RadioRequest.ofAp : RadioRequest → Bool
  | .apUp _ _ | .apDown => true
  | _ => false

/-- A start with stored credentials, or a test of new ones. -/
def RadioRequest.joins : RadioRequest → Bool
  | .staStart (some _) | .tryCredentials _ _ _ _ => true
  | _ => false

variable {ok : Nat → Bool} {ap join : Bool} {r r' : NetRadio}

/-- The moves a call of `net_link.c` is made of. It may change what is wanted of the access point, or
of joining a network, only when it is a call about that. -/
inductive Moves (ok : Nat → Bool) (ap join : Bool) (r : NetRadio) : NetRadio → Prop
  | refl : Moves ok ap join r r
  | link {r' : NetRadio} (f : NetLink → NetLink) :
      join = true ∨ ((f r'.link).wantJoin = true → r'.link.wantJoin = true) →
      Moves ok ap join r r' → Moves ok ap join r { r' with link := f r'.link }
  | wantAp {r' : NetRadio} (want : Bool) : ap = true → Moves ok ap join r r' →
      Moves ok ap join r { r' with wantAp := want }
  | apConfig {r' : NetRadio} (ssid password) : ap = true → Moves ok ap join r r' →
      Moves ok ap join r (r'.call ok (.setApConfig ssid password)).1
  | staConfig {r' : NetRadio} (cfg) : Moves ok ap join r r' →
      Moves ok ap join r (r'.call ok (.setStaConfig cfg)).1
  | connect {r' : NetRadio} : join = true ∨ r'.link.wantJoin = true → Moves ok ap join r r' →
      Moves ok ap join r (r'.call ok .connect).1
  | disconnect {r' : NetRadio} : Moves ok ap join r r' →
      Moves ok ap join r (r'.call ok .disconnect).1
  | scanStart {r' : NetRadio} : Moves ok ap join r r' → Moves ok ap join r (r'.call ok .scanStart).1
  | scanRecords {r' : NetRadio} : Moves ok ap join r r' →
      Moves ok ap join r (r'.call ok .scanRecords).1
  | applyMode {r' : NetRadio} : Moves ok ap join r r' → Moves ok ap join r (applyMode ok r').1
  | ensureStarted {r' : NetRadio} : Moves ok ap join r r' →
      Moves ok ap join r (ensureStarted ok r').1
  | ensureWifi {r' : NetRadio} : Moves ok ap join r r' → Moves ok ap join r (ensureWifi ok r').1

theorem onDisconnected_wantJoin (l : NetLink) (nowMs : UInt32) :
    (onDisconnected l nowMs).wantJoin = l.wantJoin := by
  simp only [onDisconnected]
  split_ifs <;> rfl

theorem netLinkTick_wantJoin (l : NetLink) (nowMs : UInt32) :
    (netLinkTick l nowMs).1.wantJoin = l.wantJoin ∧
      ((netLinkTick l nowMs).2 = true → l.wantJoin = true) := by
  unfold netLinkTick
  split_ifs with h <;> simp_all

theorem Moves.event (h : Moves ok ap join r r') (e : RadioEvent) :
    Moves ok ap join r (onRadioEvent ok r' e) := by
  cases e with
  | staStart =>
    simp only [onRadioEvent]
    split_ifs with hjoin
    · exact .connect (.inr hjoin) h
    · exact h
  | disconnected nowMs => exact .link (onDisconnected · nowMs) (.inr (by simp [onDisconnected_wantJoin])) h
  | gotIp => exact .link onGotIp (.inr id) h

theorem Moves.waitForBits (h : Moves ok ap join r r') (during : List RadioEvent) :
    Moves ok ap join r (waitForBits ok r' during).1 := by
  have hcleared : ∀ {r'}, Moves ok ap join r r' → Moves ok ap join r
      { r' with link := { r'.link with gotIp := false, staFail := false } } :=
    fun h => h.link (fun l => { l with gotIp := false, staFail := false }) (.inr id)
  induction during generalizing r' with
  | nil => exact hcleared h
  | cons e during ih =>
    simp only [GateAccess.waitForBits]
    split_ifs
    · exact hcleared h
    · exact ih (h.event e)

theorem Moves.okThen {done : NetRadio × Bool} {next : NetRadio → NetRadio × Bool}
    (h : Moves ok ap join r done.1)
    (hnext : ∀ r', Moves ok ap join r r' → Moves ok ap join r (next r').1) :
    Moves ok ap join r (okThen done next).1 := by
  unfold GateAccess.okThen
  split
  next => exact hnext _ h
  next => exact h

theorem staStart_moves (r : NetRadio) (creds : Option (List UInt8 × List UInt8)) :
    Moves ok ap (RadioRequest.staStart creds).joins r (netLinkStaStart ok r creds).1 := by
  match creds with
  | none => exact .refl
  | some (ssid, psk) =>
    have hinit : Moves ok ap true r (ensureWifi ok r).1 := .ensureWifi .refl
    simp only [netLinkStaStart, RadioRequest.joins]
    split
    next => exact hinit
    next =>
      have hwanted := hinit.link (fun l => { l with wantSta := true, wantJoin := true }) (.inl rfl)
      have hconfigured := hwanted.applyMode.okThen fun _ h =>
        h.staConfig (staConfigure ssid (some psk))
      refine (hconfigured.okThen fun _ => .ensureStarted).okThen fun r' h => ?_
      split
      next => exact h.connect (.inl rfl)
      next => exact h

theorem staStop_moves (r : NetRadio) : Moves ok ap join r (netLinkStaStop ok r) := by
  unfold netLinkStaStop
  split
  next => exact .refl
  next =>
    exact (Moves.refl.link (fun l => { l with
      wantSta := false, wantJoin := false, staConnected := false }) (.inr (by simp))).disconnect.applyMode

theorem tick_moves (r : NetRadio) (nowMs : UInt32) :
    Moves ok ap join r (netLinkTickRadio ok r nowMs) := by
  obtain ⟨hsame, hwanted⟩ := netLinkTick_wantJoin r.link nowMs
  have hticked : Moves ok ap join r { r with link := (netLinkTick r.link nowMs).1 } :=
    Moves.refl.link (fun l => (netLinkTick l nowMs).1) (.inr (by simp [hsame]))
  unfold netLinkTickRadio
  dsimp only
  split
  next hconnects =>
    exact hticked.connect (.inr (hsame.trans (hwanted hconnects)))
  next => exact hticked

theorem apUp_moves (r : NetRadio) (password : CText) (mac : Bytes 6) :
    Moves ok true join r (netLinkApUp ok r password mac).1 := by
  have hinit : Moves ok true join r (ensureWifi ok r).1 := .ensureWifi .refl
  have hconfigured := (hinit.wantAp true rfl).applyMode.okThen fun _ h =>
    h.apConfig (apSsid mac) (password.getD []) rfl
  have hstarted := hconfigured.okThen fun _ => .ensureStarted
  unfold netLinkApUp
  split
  next => exact .refl
  next =>
    dsimp only
    split
    next => exact hinit
    next =>
      split
      next => exact hstarted
      next => exact (hstarted.wantAp false rfl).applyMode

theorem apDown_moves (r : NetRadio) : Moves ok true join r (netLinkApDown ok r) := by
  unfold netLinkApDown
  split
  next => exact .refl
  next => exact (Moves.refl.wantAp false rfl).applyMode

theorem scan_moves (r : NetRadio) : Moves ok ap join r (netLinkScan ok r).1 := by
  have hinit : Moves ok ap join r (ensureWifi ok r).1 := .ensureWifi .refl
  have hscanned : ∀ {r'}, Moves ok ap join r r' → Moves ok ap join r
      (okThen (r'.call ok .scanStart) fun r => r.call ok .scanRecords).1 :=
    fun h => h.scanStart.okThen fun _ => .scanRecords
  unfold netLinkScan
  dsimp only
  split
  next => exact hinit
  next =>
    split
    next =>
      have hraised := (hinit.link (fun l => { l with wantSta := true })
        (.inr id)).applyMode.ensureStarted
      have hdone := hscanned hraised
      exact (hdone.link (fun l => { l with wantSta := false }) (.inr id)).applyMode
    next => exact hscanned hinit

theorem tryCredentials_moves (r : NetRadio) (ssid psk : List UInt8)
    (previous : Option (List UInt8 × List UInt8)) (during : List RadioEvent) :
    Moves ok ap true r (netLinkTryCredentials ok r ssid psk previous during).1 := by
  have hinit : Moves ok ap true r (ensureWifi ok r).1 := .ensureWifi .refl
  unfold netLinkTryCredentials
  split
  next => exact .refl
  next =>
    dsimp only
    split
    next => exact hinit
    next =>
      generalize (ensureWifi ok r).1 = r₁ at hinit ⊢
      have hraised := (hinit.link (fun l => { l with wantSta := true, wantJoin := true })
        (.inl rfl)).applyMode.ensureStarted.disconnect
      have hconfigured := (hraised.link (fun l => { l with gotIp := false, staFail := false })
        (.inl rfl)).staConfig (staConfigure ssid (some psk))
      have hwaited := (hconfigured.okThen fun _ => .connect (.inl rfl)).okThen fun _ h =>
        h.waitForBits during
      have hrestored : ∀ r₂, Moves ok ap true r r₂ →
          Moves ok ap true r (if r₁.link.wantJoin then (r₂.call ok .connect).1 else r₂) := by
        intro r₂ h
        split
        next => exact h.connect (.inl rfl)
        next => exact h
      let back (l : NetLink) := { l with wantSta := r₁.link.wantSta, wantJoin := r₁.link.wantJoin }
      cases previous with
      | none => exact hrestored _ (hwaited.disconnect.link back (.inl rfl)).applyMode
      | some creds =>
        exact hrestored _ ((hwaited.disconnect.staConfig _).link back (.inl rfl)).applyMode

/-- A call moves no further than its kind allows. -/
theorem radioStep_moves (r : NetRadio) (call : RadioRequest) :
    Moves ok call.ofAp call.joins r (radioStep ok r call) := by
  cases call with
  | staStart creds => exact staStart_moves r creds
  | staStop => exact staStop_moves r
  | apUp password mac => exact apUp_moves r password mac
  | apDown => exact apDown_moves r
  | scan => exact scan_moves r
  | tryCredentials ssid psk previous during => exact tryCredentials_moves r ssid psk previous during
  | tick nowMs => exact tick_moves r nowMs
  | event e => exact Moves.refl.event e

@[simp] theorem onAir_call (r : NetRadio) (call : RadioCall) :
    onAir (r.call ok call).1.log = (onAir r.log).after (call, ok r.log.length) := by
  simp [onAir, NetRadio.call]

/-- The driver runs when the flag says so. -/
def FlagRight (r : NetRadio) : Prop := (onAir r.log).started = r.wifiStarted

theorem FlagRight.call (h : FlagRight r) (call : RadioCall) (hstart : call ≠ .start)
    (hstop : call ≠ .stop) : FlagRight (r.call ok call).1 := by
  unfold FlagRight at h ⊢
  rw [onAir_call]
  cases hok : ok r.log.length <;> cases call <;> first | exact h | contradiction

/-- The mode that serves what is wanted; none when the radio is to be off. -/
def wantedMode (wantAp wantSta : Bool) : Option WifiMode :=
  match wantAp, wantSta with
  | true, true => some .apsta
  | true, false => some .ap
  | false, true => some .sta
  | false, false => none

theorem applyMode_mode {mode : WifiMode} (h : wantedMode r.wantAp r.link.wantSta = some mode) :
    applyMode ok r = r.call ok (.setMode mode) := by
  unfold applyMode
  cases hap : r.wantAp <;> cases hsta : r.link.wantSta <;> simp_all [wantedMode]

theorem applyMode_stop (h : wantedMode r.wantAp r.link.wantSta = none) :
    (applyMode ok r).1 =
      { (r.call ok .stop).1 with wifiStarted := r.wifiStarted && !ok r.log.length } := by
  unfold applyMode
  cases hap : r.wantAp <;> cases hsta : r.link.wantSta <;> simp_all [wantedMode]
  cases hok : ok r.log.length <;> simp [NetRadio.call, hok, hap]

theorem ensureStarted_fst :
    (ensureStarted ok r).1 =
      if r.wifiStarted then r else { (r.call ok .start).1 with wifiStarted := ok r.log.length } := by
  unfold ensureStarted
  cases hstarted : r.wifiStarted
  · cases hok : ok r.log.length <;> simp [NetRadio.call, hok, hstarted]
  · rfl

theorem ensureWifi_fst :
    (ensureWifi ok r).1 =
      if r.wifiInited then r else { (r.call ok .init).1 with wifiInited := ok r.log.length } := by
  unfold ensureWifi
  cases hinited : r.wifiInited
  · cases hok : ok r.log.length <;> simp [NetRadio.call, hok, hinited]
  · rfl

theorem FlagRight.applyMode (h : FlagRight r) : FlagRight (applyMode ok r).1 := by
  cases hmode : wantedMode r.wantAp r.link.wantSta with
  | some mode =>
    rw [applyMode_mode hmode]
    exact h.call _ (by simp) (by simp)
  | none =>
    rw [applyMode_stop hmode]
    unfold FlagRight at h ⊢
    cases hok : ok r.log.length <;> simp [OnAir.after, hok, h]

theorem FlagRight.ensureStarted (h : FlagRight r) : FlagRight (ensureStarted ok r).1 := by
  rw [ensureStarted_fst]
  split
  next => exact h
  next hstarted =>
    unfold FlagRight at h ⊢
    cases hok : ok r.log.length <;> simp [OnAir.after, hok, h, hstarted]

theorem FlagRight.ensureWifi (h : FlagRight r) : FlagRight (ensureWifi ok r).1 := by
  have hcall : FlagRight (r.call ok .init).1 := h.call _ (by simp) (by simp)
  rw [ensureWifi_fst]
  split
  next => exact h
  next => exact hcall

theorem Moves.flag (h : Moves ok ap join r r') (hr : FlagRight r) : FlagRight r' := by
  induction h with
  | refl => exact hr
  | link _ _ _ ih => exact ih
  | wantAp _ _ _ ih => exact ih
  | apConfig _ _ _ _ ih => exact ih.call _ (by simp) (by simp)
  | staConfig _ _ ih => exact ih.call _ (by simp) (by simp)
  | connect _ _ ih => exact ih.call _ (by simp) (by simp)
  | disconnect _ ih => exact ih.call _ (by simp) (by simp)
  | scanStart _ ih => exact ih.call _ (by simp) (by simp)
  | scanRecords _ ih => exact ih.call _ (by simp) (by simp)
  | applyMode _ ih => exact ih.applyMode
  | ensureStarted _ ih => exact ih.ensureStarted
  | ensureWifi _ ih => exact ih.ensureWifi

theorem FlagRight.apUp (h : FlagRight r) (password : CText) (mac : Bytes 6) :
    FlagRight (netLinkApUp ok r password mac).1 := by
  have hmoves : Moves ok true false r (netLinkApUp ok r password mac).1 := apUp_moves r password mac
  exact hmoves.flag h

theorem FlagRight.apDown (h : FlagRight r) : FlagRight (netLinkApDown ok r) := by
  have hmoves : Moves ok true false r (netLinkApDown ok r) := apDown_moves r
  exact hmoves.flag h

theorem radioRun_flag (ok : Nat → Bool) (calls : List RadioRequest) : FlagRight (radioRun ok calls) :=
  exec_invariant (I := FlagRight) (fun r call h => (radioStep_moves r call).flag h)
    (show FlagRight netRadioInit from rfl) calls

/-- The calls of the driver in between are all of this kind. -/
def Adds (P : RadioCall → Prop) (r r' : NetRadio) : Prop :=
  ∃ new, r'.log = r.log ++ new ∧ ∀ e ∈ new, P e.1

theorem Adds.refl (P : RadioCall → Prop) (r : NetRadio) : Adds P r r := ⟨[], by simp, by simp⟩

theorem Adds.trans {P : RadioCall → Prop} {a b c : NetRadio} (h : Adds P a b) (h' : Adds P b c) :
    Adds P a c := by
  obtain ⟨new, hlog, hnew⟩ := h
  obtain ⟨new', hlog', hnew'⟩ := h'
  refine ⟨new ++ new', by rw [hlog', hlog, List.append_assoc], fun e he => ?_⟩
  rcases List.mem_append.mp he with he | he
  · exact hnew e he
  · exact hnew' e he

theorem Adds.call {P : RadioCall → Prop} {r r' : NetRadio} (h : Adds P r r') {call : RadioCall}
    (hcall : P call) : Adds P r (r'.call ok call).1 :=
  h.trans ⟨[(call, ok r'.log.length)], rfl, by simpa using hcall⟩

/-- A call that only sets a flag besides. -/
theorem Adds.log {P : RadioCall → Prop} {a b c : NetRadio} (h : Adds P a b) (hlog : c.log = b.log) :
    Adds P a c := by
  obtain ⟨new, hb, hnew⟩ := h
  exact ⟨new, hlog.trans hb, hnew⟩

theorem Adds.ensureStarted {P : RadioCall → Prop} {r r' : NetRadio} (h : Adds P r r')
    (hcall : P .start) : Adds P r (ensureStarted ok r').1 := by
  rw [ensureStarted_fst]
  split
  next => exact h
  next => exact (h.call hcall).log rfl

theorem Adds.ensureWifi {P : RadioCall → Prop} {r r' : NetRadio} (h : Adds P r r')
    (hcall : P .init) : Adds P r (ensureWifi ok r').1 := by
  rw [ensureWifi_fst]
  split
  next => exact h
  next => exact (h.call hcall).log rfl

theorem Adds.applyMode {P : RadioCall → Prop} {r r' : NetRadio} (h : Adds P r r')
    (hmode : ∀ mode, wantedMode r'.wantAp r'.link.wantSta = some mode → P (.setMode mode))
    (hstop : wantedMode r'.wantAp r'.link.wantSta = none → P .stop) :
    Adds P r (applyMode ok r').1 := by
  cases hwanted : wantedMode r'.wantAp r'.link.wantSta with
  | some mode =>
    rw [applyMode_mode hwanted]
    exact h.call (hmode mode hwanted)
  | none =>
    rw [applyMode_stop hwanted]
    exact (h.call (hstop hwanted)).log rfl

theorem applyMode_wantAp : (applyMode ok r).1.wantAp = r.wantAp := by
  cases hwanted : wantedMode r.wantAp r.link.wantSta with
  | some mode => rw [applyMode_mode hwanted]; rfl
  | none => rw [applyMode_stop hwanted]; rfl

theorem applyMode_link : (applyMode ok r).1.link = r.link := by
  cases hwanted : wantedMode r.wantAp r.link.wantSta with
  | some mode => rw [applyMode_mode hwanted]; rfl
  | none => rw [applyMode_stop hwanted]; rfl

theorem ensureStarted_wantAp : (ensureStarted ok r).1.wantAp = r.wantAp := by
  rw [ensureStarted_fst]
  split <;> rfl

theorem ensureStarted_link : (ensureStarted ok r).1.link = r.link := by
  rw [ensureStarted_fst]
  split <;> rfl

theorem ensureWifi_wantAp : (ensureWifi ok r).1.wantAp = r.wantAp := by
  rw [ensureWifi_fst]
  split <;> rfl

theorem ensureWifi_link : (ensureWifi ok r).1.link = r.link := by
  rw [ensureWifi_fst]
  split <;> rfl

/-- A wanted access point stays wanted, and nothing on the way disturbs it. -/
theorem Moves.spares (h : Moves ok false join r r') (hr : r.wantAp = true) :
    r'.wantAp = true ∧ Adds RadioCall.SparesAp r r' := by
  induction h with
  | refl => exact ⟨hr, Adds.refl _ r⟩
  | link _ _ _ ih => exact ⟨ih.1, ih.2.log rfl⟩
  | wantAp _ hap => cases hap
  | apConfig _ _ hap => cases hap
  | staConfig _ _ ih => exact ⟨ih.1, ih.2.call trivial⟩
  | connect _ _ ih => exact ⟨ih.1, ih.2.call trivial⟩
  | disconnect _ ih => exact ⟨ih.1, ih.2.call trivial⟩
  | scanStart _ ih => exact ⟨ih.1, ih.2.call trivial⟩
  | scanRecords _ ih => exact ⟨ih.1, ih.2.call trivial⟩
  | @applyMode r₁ _ ih =>
    refine ⟨applyMode_wantAp.trans ih.1, ih.2.applyMode (fun mode hmode => ?_) fun hnone => ?_⟩
    · rw [ih.1] at hmode
      revert hmode
      cases mode <;> cases r₁.link.wantSta <;> simp [wantedMode, RadioCall.SparesAp]
    · rw [ih.1] at hnone
      revert hnone
      cases r₁.link.wantSta <;> simp [wantedMode]
  | ensureStarted _ ih => exact ⟨ensureStarted_wantAp.trans ih.1, ih.2.ensureStarted trivial⟩
  | ensureWifi _ ih => exact ⟨ensureWifi_wantAp.trans ih.1, ih.2.ensureWifi trivial⟩

/-- Nothing starts to join, and while nothing joins no connect is asked for. -/
theorem Moves.idle (h : Moves ok ap false r r') (hr : r.link.wantJoin = false) :
    r'.link.wantJoin = false ∧ Adds (· ≠ .connect) r r' := by
  induction h with
  | refl => exact ⟨hr, Adds.refl _ r⟩
  | link f hjoin _ ih =>
    refine ⟨?_, ih.2.log rfl⟩
    rw [← Bool.not_eq_true] at ih ⊢
    exact fun hwant => ih.1 ((hjoin.resolve_left (by simp)) hwant)
  | wantAp _ _ _ ih => exact ⟨ih.1, ih.2.log rfl⟩
  | apConfig _ _ _ _ ih => exact ⟨ih.1, ih.2.call (by simp)⟩
  | staConfig _ _ ih => exact ⟨ih.1, ih.2.call (by simp)⟩
  | connect hjoin _ ih =>
    rcases hjoin with hjoin | hjoin
    · cases hjoin
    · rw [ih.1] at hjoin
      cases hjoin
  | disconnect _ ih => exact ⟨ih.1, ih.2.call (by simp)⟩
  | scanStart _ ih => exact ⟨ih.1, ih.2.call (by simp)⟩
  | scanRecords _ ih => exact ⟨ih.1, ih.2.call (by simp)⟩
  | applyMode _ ih =>
    exact ⟨by rw [applyMode_link]; exact ih.1, ih.2.applyMode (by simp) (by simp)⟩
  | ensureStarted _ ih =>
    exact ⟨by rw [ensureStarted_link]; exact ih.1, ih.2.ensureStarted (by simp)⟩
  | ensureWifi _ ih =>
    exact ⟨by rw [ensureWifi_link]; exact ih.1, ih.2.ensureWifi (by simp)⟩

theorem OnAir.Beacons.after {d : OnAir} {ssid password : List UInt8} (h : d.Beacons ssid password)
    {e : RadioCall × Bool} (he : e.1.SparesAp) : (d.after e).Beacons ssid password := by
  obtain ⟨call, done⟩ := e
  cases done with
  | false => cases call <;> exact h
  | true =>
    cases call with
    | setMode mode =>
      cases mode with
      | sta => exact he.elim
      | ap => exact ⟨h.started, .inl rfl, h.config⟩
      | apsta => exact ⟨h.started, .inr rfl, h.config⟩
    | setApConfig ssid password => exact he.elim
    | stop => exact he.elim
    | start => exact ⟨rfl, h.mode, h.config⟩
    | setStaConfig cfg => exact ⟨h.started, h.mode, h.config⟩
    | init => exact h
    | connect => exact h
    | disconnect => exact h
    | scanStart => exact h
    | scanRecords => exact h

theorem OnAir.Beacons.foldl {d : OnAir} {ssid password : List UInt8} (h : d.Beacons ssid password)
    {new : List (RadioCall × Bool)} (hnew : ∀ e ∈ new, e.1.SparesAp) :
    (new.foldl OnAir.after d).Beacons ssid password := by
  induction new generalizing d with
  | nil => exact h
  | cons e new ih =>
    exact ih (h.after (hnew e List.mem_cons_self)) fun e he => hnew e (List.mem_cons_of_mem _ he)

theorem okThen_ok {done : NetRadio × Bool} {next : NetRadio → NetRadio × Bool}
    (h : (okThen done next).2 = true) :
    done.2 = true ∧ (next done.1).2 = true ∧ okThen done next = next done.1 := by
  unfold okThen at h ⊢
  split at h
  next hdone => exact ⟨hdone, h, if_pos hdone⟩
  next hdone => exact absurd h hdone

theorem ensureStarted_started (h : (ensureStarted ok r).2 = true) :
    (ensureStarted ok r).1.wifiStarted = true := by
  unfold ensureStarted at h ⊢
  split
  next hstarted => exact hstarted
  next hstarted =>
    rw [if_neg hstarted] at h
    dsimp only at h ⊢
    split
    next => rfl
    next hok =>
      rw [if_neg hok] at h
      exact absurd h hok

theorem ensureStarted_mode : (onAir (ensureStarted ok r).1.log).mode = (onAir r.log).mode := by
  rw [ensureStarted_fst]
  split
  next => rfl
  next => cases hok : ok r.log.length <;> simp [OnAir.after, hok]

theorem ensureStarted_ap : (onAir (ensureStarted ok r).1.log).ap = (onAir r.log).ap := by
  rw [ensureStarted_fst]
  split
  next => rfl
  next => cases hok : ok r.log.length <;> simp [OnAir.after, hok]

/-- Mode, configuration and start, in this order, put a wanted access point on the air. -/
theorem apChain_beacons (hr : FlagRight r) (hap : r.wantAp = true) (ssid password : List UInt8)
    (h : (okThen (okThen (applyMode ok r) fun r => r.call ok (.setApConfig ssid password))
      (ensureStarted ok)).2 = true) :
    let r' := (okThen (okThen (applyMode ok r) fun r => r.call ok (.setApConfig ssid password))
      (ensureStarted ok)).1
    r'.wantAp = true ∧ (onAir r'.log).Beacons ssid password := by
  obtain ⟨hconfigured, hrunning, hlast⟩ := okThen_ok h
  obtain ⟨happlied, hcall, hset⟩ := okThen_ok hconfigured
  dsimp only
  rw [hlast, hset]
  rw [hset] at hrunning
  have hmode : ∃ mode, wantedMode r.wantAp r.link.wantSta = some mode ∧
      (some mode = some WifiMode.ap ∨ some mode = some WifiMode.apsta) := by
    rw [hap]
    cases r.link.wantSta
    · exact ⟨.ap, rfl, .inl rfl⟩
    · exact ⟨.apsta, rfl, .inr rfl⟩
  obtain ⟨mode, hwanted, hmode⟩ := hmode
  rw [applyMode_mode hwanted] at happlied hcall hrunning ⊢
  have happlied : ok r.log.length = true := happlied
  have hflag : FlagRight (ensureStarted ok
      ((r.call ok (.setMode mode)).1.call ok (.setApConfig ssid password)).1).1 :=
    ((hr.call _ (by simp) (by simp)).call _ (by simp) (by simp)).ensureStarted
  refine ⟨by rw [ensureStarted_wantAp]; exact hap, ?_, ?_, ?_⟩
  · rw [hflag]
    exact ensureStarted_started hrunning
  · rw [ensureStarted_mode, onAir_call, onAir_call, happlied]
    cases ok _ <;> exact hmode
  · rw [ensureStarted_ap, onAir_call]
    have hcall : ok (r.call ok (.setMode mode)).1.log.length = true := hcall
    rw [hcall]
    rfl

theorem apUp_beacons (hr : FlagRight r) {password : CText} {mac : Bytes 6} {ssid : List UInt8}
    (hup : (netLinkApUp ok r password mac).2 = some ssid) :
    (netLinkApUp ok r password mac).1.wantAp = true ∧ ssid = apSsid mac ∧
      (onAir (netLinkApUp ok r password mac).1.log).Beacons ssid (password.getD []) := by
  have hflag : FlagRight { (ensureWifi ok r).1 with wantAp := true } := hr.ensureWifi
  unfold netLinkApUp at hup ⊢
  split at hup
  next => cases hup
  next htaken =>
    rw [if_neg htaken]
    dsimp only at hup ⊢
    split at hup
    next => cases hup
    next hinit =>
      rw [if_neg hinit]
      split at hup
      next hstarted =>
        obtain rfl := Option.some.inj hup
        rw [if_pos hstarted]
        obtain ⟨hwanted, hbeacons⟩ := apChain_beacons hflag rfl _ _ hstarted
        exact ⟨hwanted, rfl, hbeacons⟩
      next => cases hup

theorem radioRun_spares {calls : List RadioRequest} (hcalls : ∀ call ∈ calls, call.ofAp = false)
    (hr : r.wantAp = true) :
    (exec (radioStep ok) r calls).wantAp = true ∧
      Adds RadioCall.SparesAp r (exec (radioStep ok) r calls) := by
  induction calls generalizing r with
  | nil => exact ⟨hr, Adds.refl _ r⟩
  | cons call calls ih =>
    have hmoves : Moves ok call.ofAp call.joins r (radioStep ok r call) := radioStep_moves r call
    rw [hcalls call List.mem_cons_self] at hmoves
    obtain ⟨hwanted, hadds⟩ := hmoves.spares hr
    obtain ⟨hend, hrest⟩ := ih (fun call h => hcalls call (List.mem_cons_of_mem _ h)) hwanted
    exact ⟨hend, hadds.trans hrest⟩

/-- Once `net_link_ap_up` has succeeded the access point stays on the air, at every single call of the
driver, until it is called again or `net_link_ap_down` is: whatever the station does in between, and
whichever of the driver's calls fail. -/
theorem ap_undisturbed (ok : Nat → Bool) (before during : List RadioRequest) (password : CText)
    (mac : Bytes 6) (ssid : List UInt8)
    (hup : (netLinkApUp ok (radioRun ok before) password mac).2 = some ssid)
    (hduring : ∀ call ∈ during, call.ofAp = false) (log : List (RadioCall × Bool))
    (hfrom : (radioRun ok (before ++ [.apUp password mac])).log <+: log)
    (hupto : log <+: (radioRun ok (before ++ .apUp password mac :: during)).log) :
    (onAir log).Beacons ssid (password.getD []) := by
  obtain ⟨hwanted, -, hbeacons⟩ := apUp_beacons (radioRun_flag ok before) hup
  have hafter : radioRun ok (before ++ [.apUp password mac]) =
      (netLinkApUp ok (radioRun ok before) password mac).1 := exec_concat _ _ _ _
  rw [radioRun, exec_split] at hupto
  rw [hafter] at hfrom
  have hafterWanted : (radioRun ok (before ++ [.apUp password mac])).wantAp = true := hafter ▸ hwanted
  obtain ⟨-, new, hlog, hnew⟩ := radioRun_spares hduring hafterWanted
  rw [hlog, hafter] at hupto
  obtain ⟨added, rfl⟩ := hfrom
  have hadded : added <+: new := (List.prefix_append_right_inj _).mp hupto
  rw [onAir, List.foldl_append]
  exact hbeacons.foldl fun e he => hnew e (hadded.subset he)

/-- A scan and a failing start of the station, seen from the access point. -/
theorem ap_undisturbed_scan :
    (onAir (radioRun (fun n => n ≠ 9) [.apUp (some (ascii "quinze-laranjas")) (zeros 6), .scan,
      .staStart (some (ascii "casa-wifi", ascii "12345678"))]).log).Beacons
      (ascii "PORTAO-000000") (ascii "quinze-laranjas") :=
  ap_undisturbed (fun n => n ≠ 9) []
    [.scan, .staStart (some (ascii "casa-wifi", ascii "12345678"))]
    (some (ascii "quinze-laranjas")) (zeros 6) (ascii "PORTAO-000000") (by decide +kernel)
    (by decide) _ (by decide +kernel) List.prefix_rfl

end GateAccess
