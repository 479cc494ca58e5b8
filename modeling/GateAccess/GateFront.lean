import GateAccess.AttemptPersist
import GateAccess.LockDriver
import GateAccess.PanelLoop
import GateAccess.TwoRuns

namespace GateAccess

/-- What reaches the street side: the gate, the coil, the border asked for and the panel. -/
structure GateFront where
  device : GateDevice
  lock : DriverRun
  border : BorderState
  panel : MainPanel

/-- What the main loop does in a pass, piece by piece, and what other tasks do in between. -/
inductive FrontEvent
  | gate (e : GateEvent)
  | lockTick
  | showBorder (durationMs : UInt32)
  | render (now : UiNow) (turns : Fin oledPages → PageTransfer) (power : PowerTransfer)

/-- The pass as the panel gets it. -/
def renderPass (f : GateFront) (now : UiNow) (turns : Fin oledPages → PageTransfer)
    (power : PowerTransfer) : LoopPass where
  borderUntilMs := f.border.borderUntilMs
  now := now
  r := uiRender f.device.gate.ui f.device.gate.ac now
  turns := turns
  power := power

def passAt (f : GateFront) : FrontEvent → List LoopPass
  | .render now turns power => [renderPass f now turns power]
  | _ => []

variable (hash : List UInt8 → Bytes acHashLen)

def frontAct (uptime : Nat) (f : GateFront) : FrontEvent → GateFront
  | .gate e =>
    let o := gateOut hash f.device.gate e
    { f with
      device := handle { f.device with gate := gateStep hash f.device.gate e } o
      lock := if o.openLock then driverAct uptime f.lock .driverOpen else f.lock }
  | .lockTick => { f with lock := driverAct uptime f.lock .driverTick }
  | .showBorder durationMs => { f with border := gateAppShowBorder uptime f.border durationMs }
  | .render now turns power => { f with panel := panelPass f.panel (renderPass f now turns power) }

/-- What is the same at every power-up of one gate, whatever codes its EEPROM holds. -/
structure FrontBoot where
  maxFailed : UInt8
  lockoutSeconds : Int
  image : PrImage
  clockOk : Bool
  lockCfg : LockDriverConfig
  gpioOk : Bool
  panel : PanelBoot
  fb : OledFb

def frontStart (b : FrontBoot) (eeprom : Eeprom) : GateFront where
  device := gatePowerUp b.maxFailed b.lockoutSeconds b.image eeprom b.clockOk
  lock := ⟨lockDriverInit b.lockCfg b.gpioOk, 0⟩
  border := ⟨0, 0⟩
  panel := panelBoot b.panel b.fb

def frontRun (b : FrontBoot) (eeprom : Eeprom) (ops : List (Timed FrontEvent)) : AtTime GateFront :=
  exec (timedStep (frontAct hash)) ⟨0, frontStart b eeprom⟩ ops

/-- The verdict on a code, in the steps that submit one. -/
def GateOut.verdict (o : GateOut) : List AcResult := if o.submitted then [o.result] else []

def verdictOf (f : GateFront) : FrontEvent → List AcResult
  | .gate e => (gateOut hash f.device.gate e).verdict
  | _ => []

/-- The passes of a run, as the panel got them. -/
def passesOf (b : FrontBoot) (eeprom : Eeprom) (ops : List (Timed FrontEvent)) : List LoopPass :=
  logOf (timedStep (frontAct hash)) (timedTell passAt) ⟨0, frontStart b eeprom⟩ ops

def verdictsOf (b : FrontBoot) (eeprom : Eeprom) (ops : List (Timed FrontEvent)) : List AcResult :=
  logOf (timedStep (frontAct hash)) (timedTell (verdictOf hash)) ⟨0, frontStart b eeprom⟩ ops

/-- The same event but for which key it is, or edits of the table that need not have anything to do
with each other. -/
inductive GateEvent.Alike : GateEvent → GateEvent → Prop
  | same (e) : Alike e e
  | key (key key' now) : Alike (.key key now) (.key key' now)
  | edit {e e'} : e.epoch = none → (∀ trusted, e ≠ .clockTrusted trusted) →
      e'.epoch = none → (∀ trusted, e' ≠ .clockTrusted trusted) → Alike e e'

inductive FrontEvent.Alike : FrontEvent → FrontEvent → Prop
  | same (e) : Alike e e
  | gate {e e'} : e.Alike e' → Alike (.gate e) (.gate e')

/-- The same but for the table and the characters typed. -/
def GateCtrl.Alike (g g' : GateCtrl) : Prop := TableEdit g.ac g'.ac ∧ g.ui = g'.ui

structure GateFront.Alike (f f' : GateFront) : Prop where
  gate : f.device.gate.Alike f'.device.gate
  store : f.device.store = f'.device.store
  bootCount : f.device.bootCount = f'.device.bootCount
  lock : f.lock = f'.lock
  border : f.border = f'.border
  panel : f.panel = f'.panel

variable {hash} {hash' : List UInt8 → Bytes acHashLen}

theorem TableEdit.symm {ac ac' : AcCtx} (h : TableEdit ac ac') : TableEdit ac' ac := by
  obtain ⟨slots, rfl⟩ := h
  exact ⟨ac.slots, rfl⟩

theorem TableEdit.tick {ac ac' : AcCtx} (h : TableEdit ac ac') (now : Int) :
    TableEdit (acTick ac now) (acTick ac' now) := by
  obtain ⟨slots, rfl⟩ := h
  refine ⟨slots, ?_⟩
  unfold acTick
  dsimp only
  split <;> rfl

/-- What an evaluation leaves, by its verdict. -/
def afterVerdict (ac : AcCtx) (now : Int) : AcResult → AcCtx
  | .granted => { acTick ac now with failedAttempts := 0, lockoutUntil := 0 }
  | .deniedUnknown => registerFailure (acTick ac now) now
  | .deniedNoClock => ac
  | _ => acTick ac now

theorem acEvaluate_after (ac : AcCtx) (code : Bytes acHashLen) (now : Int) :
    (acEvaluate ac code now).1 = afterVerdict ac now (acEvaluate ac code now).2.1 := by
  have hv := acEvaluate_verdict ac code now
  generalize acEvaluate ac code now = v at hv ⊢
  cases hv <;> rfl

theorem TableEdit.verdict {ac ac' : AcCtx} (h : TableEdit ac ac') (now : Int) (r : AcResult) :
    TableEdit (afterVerdict ac now r) (afterVerdict ac' now r) := by
  obtain ⟨slots, hslots⟩ := h.tick now
  cases r with
  | granted => exact ⟨slots, by simp only [afterVerdict, hslots]⟩
  | deniedUnknown => exact ⟨slots, by simp only [afterVerdict, registerFailure, hslots]⟩
  | deniedNoClock => exact h
  | _ => exact ⟨slots, hslots⟩

theorem TableEdit.changed {ac ac' : AcCtx} (h : TableEdit ac ac') (f0 : UInt8) (l0 : Int) :
    attemptsChanged ac f0 l0 = attemptsChanged ac' f0 l0 := by
  obtain ⟨slots, rfl⟩ := h
  rfl

/-- The controller hands out the same, and stays the same but for the table and the characters. -/
def HandsAlike (g g' : GateCtrl) (o o' : GateOut) : Prop :=
  g.Alike g' ∧ o.openLock = o'.openLock ∧ o.persistAttempts = o'.persistAttempts

/-- Two submits with the same verdict cannot be told apart. -/
theorem submit_alike {g g' : GateCtrl} (h : g.Alike g') {now : UiNow}
    (hsame : (submit hash g now).2.verdict = (submit hash' g' now).2.verdict) :
    HandsAlike (submit hash g now).1 (submit hash' g' now).1 (submit hash g now).2
      (submit hash' g' now).2 := by
  obtain ⟨ac, ui, buf⟩ := g
  obtain ⟨ac', ui', buf'⟩ := g'
  obtain ⟨htable, rfl⟩ : TableEdit ac ac' ∧ ui = ui' := h
  have hafter := htable.verdict now.epoch (submit hash ⟨ac, ui, buf⟩ now).2.result
  have hleft := acEvaluate_after ac (hash (codeArg ⟨ac, ui, buf⟩)) now.epoch
  have hright := acEvaluate_after ac' (hash' (codeArg ⟨ac', ui, buf'⟩)) now.epoch
  simp only [submit, GateOut.verdict, if_true, List.cons.injEq, and_true] at hsame hafter ⊢
  rw [← hleft, hsame, ← hright] at hafter
  rw [hsame, hafter.changed]
  obtain ⟨slots, hslots⟩ := hafter
  obtain ⟨slots', rfl⟩ := htable
  refine ⟨⟨⟨slots, hslots⟩, ?_⟩, rfl, rfl⟩
  dsimp only
  rw [hslots]
  rfl

theorem gateOnKey_alike {g g' : GateCtrl} (h : g.Alike g') (key key' : UInt8) (now : UiNow) :
    (gateOnKey hash g key now).2.verdict.length = (gateOnKey hash' g' key' now).2.verdict.length ∧
      ((gateOnKey hash g key now).2.verdict = (gateOnKey hash' g' key' now).2.verdict →
        HandsAlike (gateOnKey hash g key now).1 (gateOnKey hash' g' key' now).1
          (gateOnKey hash g key now).2 (gateOnKey hash' g' key' now).2) := by
  obtain ⟨ac, ui, buf⟩ := g
  obtain ⟨ac', ui', buf'⟩ := g'
  obtain ⟨htable, rfl⟩ : TableEdit ac ac' ∧ ui = ui' := h
  have hui : uiOnKey ui ac' now = uiOnKey ui ac now := by
    obtain ⟨slots, rfl⟩ := htable
    rfl
  have typed : (storeKey ⟨ac, (uiOnKey ui ac now).1, buf⟩ key).Alike
      (storeKey ⟨ac', (uiOnKey ui ac now).1, buf'⟩ key') := ⟨htable, rfl⟩
  rw [gateOnKey_eq, gateOnKey_eq]
  dsimp only
  rw [hui]
  split_ifs
  · exact ⟨rfl, fun _ => ⟨⟨htable, rfl⟩, rfl, rfl⟩⟩
  · exact ⟨rfl, submit_alike typed⟩
  · exact ⟨rfl, fun _ => ⟨typed, rfl, rfl⟩⟩

theorem gateTick_alike {g g' : GateCtrl} (h : g.Alike g') (now : UiNow) :
    (gateTick g now).1.Alike (gateTick g' now).1 ∧ (gateTick g now).2 = (gateTick g' now).2 := by
  obtain ⟨ac, ui, buf⟩ := g
  obtain ⟨ac', ui', buf'⟩ := g'
  obtain ⟨htable, rfl⟩ : TableEdit ac ac' ∧ ui = ui' := h
  have hpair : ac'.failedAttempts = ac.failedAttempts ∧ ac'.lockoutUntil = ac.lockoutUntil := by
    obtain ⟨slots, rfl⟩ := htable
    exact ⟨rfl, rfl⟩
  have htick : TableEdit (gateTickAc ⟨ac, ui, buf⟩ now) (gateTickAc ⟨ac', ui, buf'⟩ now) := by
    unfold gateTickAc
    dsimp only
    split
    · exact htable.tick now.epoch
    · exact htable
  unfold gateTick
  dsimp only
  rw [hpair.1, hpair.2, htick.changed]
  generalize gateTickAc ⟨ac, ui, buf⟩ now = a at htick ⊢
  obtain ⟨slots, hslots⟩ := htick
  rw [hslots]
  exact ⟨⟨⟨slots, rfl⟩, rfl⟩, rfl⟩

theorem edit_alike {g g' : GateCtrl} (h : g.Alike g') {e e' : GateEvent} (he : e.epoch = none)
    (ht : ∀ trusted, e ≠ .clockTrusted trusted) (he' : e'.epoch = none)
    (ht' : ∀ trusted, e' ≠ .clockTrusted trusted) :
    (gateStep hash g e).Alike (gateStep hash' g' e') := by
  obtain ⟨ac, hac, hstep⟩ := gateStep_table hash he ht
  obtain ⟨ac', hac', hstep'⟩ := gateStep_table hash' (g := g') he' ht'
  rw [hstep, hstep']
  exact ⟨(hac.symm.trans h.1).trans hac', h.2⟩

theorem gateOut_edit {e : GateEvent} (he : e.epoch = none) (g : GateCtrl) : gateOut hash g e = .zero := by
  cases e <;> first | rfl | cases he

theorem gateStep_alike {g g' : GateCtrl} (h : g.Alike g') {e e' : GateEvent} (he : e.Alike e') :
    (gateOut hash g e).verdict.length = (gateOut hash' g' e').verdict.length ∧
      ((gateOut hash g e).verdict = (gateOut hash' g' e').verdict →
        HandsAlike (gateStep hash g e) (gateStep hash' g' e') (gateOut hash g e)
          (gateOut hash' g' e')) := by
  cases he with
  | key key key' now => exact gateOnKey_alike h key key' now
  | edit hnone ht hnone' ht' =>
    rw [gateOut_edit hnone, gateOut_edit hnone']
    exact ⟨rfl, fun _ => ⟨edit_alike h hnone ht hnone' ht', rfl, rfl⟩⟩
  | same =>
    cases e with
    | key key now => exact gateOnKey_alike h key key now
    | longPress now =>
      obtain ⟨ac, ui, buf⟩ := g
      obtain ⟨ac', ui', buf'⟩ := g'
      obtain ⟨⟨slots, rfl⟩, rfl⟩ : TableEdit ac ac' ∧ ui = ui' := h
      exact ⟨rfl, fun _ => ⟨⟨⟨slots, rfl⟩, rfl⟩, rfl, rfl⟩⟩
    | tick now =>
      obtain ⟨hgate, hout⟩ := gateTick_alike h now
      exact ⟨congrArg (List.length ∘ GateOut.verdict) hout, fun _ =>
        ⟨hgate, congrArg GateOut.openLock hout, congrArg GateOut.persistAttempts hout⟩⟩
    | clockTrusted trusted =>
      obtain ⟨⟨slots, hslots⟩, hui⟩ := h
      refine ⟨rfl, fun _ => ⟨⟨⟨slots, ?_⟩, ?_⟩, rfl, rfl⟩⟩
      · simp only [gateStep, gateAppSetClockTrusted, hslots]
      · simp only [gateStep, gateAppSetClockTrusted, hui]
    | _ => exact ⟨rfl, fun _ => ⟨edit_alike h rfl (by simp) rfl (by simp), rfl, rfl⟩⟩

theorem handle_alike {d d' : GateDevice} {o o' : GateOut} (hgate : d.gate.Alike d'.gate)
    (hstore : d.store = d'.store) (hboot : d.bootCount = d'.bootCount)
    (hsave : o.persistAttempts = o'.persistAttempts) :
    (handle d o).gate.Alike (handle d' o').gate ∧ (handle d o).store = (handle d' o').store ∧
      (handle d o).bootCount = (handle d' o').bootCount := by
  have hsaved : persistAttempts d.store d.gate.ac d.bootCount =
      persistAttempts d'.store d'.gate.ac d'.bootCount := by
    obtain ⟨⟨slots, hslots⟩, -⟩ := hgate
    rw [hstore, hboot, hslots]
    rfl
  unfold handle
  rw [hsave]
  split
  · exact ⟨hgate, hsaved, hboot⟩
  · exact ⟨hgate, hstore, hboot⟩

theorem gate_alike (uptime : Nat) {f f' : GateFront} (hf : f.Alike f') {e e' : GateEvent}
    (he : e.Alike e') (htold : verdictOf hash f (.gate e) = verdictOf hash' f' (.gate e')) :
    (frontAct hash uptime f (.gate e)).Alike (frontAct hash' uptime f' (.gate e')) := by
  obtain ⟨hgate, hopen, hsave⟩ := (gateStep_alike hf.gate he).2 htold
  obtain ⟨hkept, hstore, hboot⟩ := @handle_alike { f.device with gate := gateStep hash f.device.gate e }
    { f'.device with gate := gateStep hash' f'.device.gate e' } _ _ hgate hf.store hf.bootCount hsave
  refine ⟨hkept, hstore, hboot, ?_, hf.border, hf.panel⟩
  simp only [frontAct, hopen, hf.lock]

theorem frontAct_unwinds (uptime : Nat) : Unwinds (frontAct hash uptime) (frontAct hash' uptime)
    (verdictOf hash) (verdictOf hash') GateFront.Alike FrontEvent.Alike where
  asMuch {f f' e e'} hf he := by
    cases he with
    | same e =>
      cases e with
      | gate e => exact (gateStep_alike hf.gate (.same e)).1
      | _ => rfl
    | gate he => exact (gateStep_alike hf.gate he).1
  keeps {f f' e e'} hf he htold := by
    cases he with
    | same e =>
      cases e with
      | gate e => exact gate_alike uptime hf (.same e) htold
      | lockTick => exact { hf with lock := congrArg (driverAct uptime · .driverTick) hf.lock }
      | showBorder durationMs =>
        exact { hf with border := congrArg (gateAppShowBorder uptime · durationMs) hf.border }
      | render now turns power =>
        obtain ⟨⟨slots, hslots⟩, hui⟩ := hf.gate
        have hpass : renderPass f now turns power = renderPass f' now turns power := by
          simp only [renderPass, hf.border, hslots, hui]
          rfl
        exact { hf with panel := by simp only [frontAct, hpass, hf.panel] }
    | gate he => exact gate_alike uptime hf he htold

theorem frontStart_alike (b : FrontBoot) (eeprom eeprom' : Eeprom) :
    (frontStart b eeprom).Alike (frontStart b eeprom') :=
  ⟨⟨⟨_, rfl⟩, rfl⟩, rfl, rfl, rfl, rfl, rfl⟩

/-- From the street no more than the verdicts can be seen of the keys typed, of the codes stored, of
the edits made to them or of the salt: not on the glass, not at the coil, not in the attempt ring. -/
theorem front_shows_verdicts (b : FrontBoot) (eeprom eeprom' : Eeprom)
    {ops ops' : List (Timed FrontEvent)} (hops : List.Forall₂ (Timed.Alike FrontEvent.Alike) ops ops')
    (hverdicts : verdictsOf hash b eeprom ops = verdictsOf hash' b eeprom' ops') (n : Nat) :
    (frontRun hash b eeprom (ops.take n)).state.panel.glass =
        (frontRun hash' b eeprom' (ops'.take n)).state.panel.glass ∧
      (frontRun hash b eeprom (ops.take n)).state.lock.driver.level =
        (frontRun hash' b eeprom' (ops'.take n)).state.lock.driver.level ∧
      (frontRun hash b eeprom (ops.take n)).state.device.store.image =
        (frontRun hash' b eeprom' (ops'.take n)).state.device.store.image := by
  have hunwinds := Unwinds.timed (@frontAct_unwinds hash hash')
  have hstart : AtTime.Alike GateFront.Alike ⟨0, frontStart b eeprom⟩ ⟨0, frontStart b eeprom'⟩ :=
    ⟨rfl, frontStart_alike b eeprom eeprom'⟩
  obtain ⟨-, halike⟩ := hunwinds.run hstart hops hverdicts n
  exact ⟨congrArg MainPanel.glass halike.panel, congrArg (fun l => l.driver.level) halike.lock,
    congrArg PrStore.image halike.store⟩

def benchFront : FrontBoot :=
  ⟨5, 300, fun _ => List.Vector.replicate _ 255, true, ⟨true, 800⟩, true,
    ⟨noisePanel, true, true, true, turnsBut (some 3), ⟨true, true⟩⟩, plainFb 0⟩

def blankEeprom : Eeprom := fun _ => ⟨List.Vector.replicate _ 255, List.Vector.replicate _ 255⟩

/-- A code is stored, and one key is pressed nine times. -/
def nineOf (id : List UInt8) (h : Bytes acHashLen) (key : UInt8) : List (Timed FrontEvent) :=
  .event (.gate (.upsert id h 0 100)) :: List.replicate 9 (.event (.gate (.key key ⟨0, 10⟩)))

/-- Two guests of two gates. -/
theorem front_shows_verdicts_guests :
    (frontRun (fun _ => zeros _) benchFront blankEeprom
        ((nineOf (ascii "0a1b2c3d") (zeros _) 53).take 10)).state.panel.glass =
      (frontRun (fun _ => List.Vector.replicate _ 7) benchFront blankEeprom
        ((nineOf (ascii "deadbeef") (List.Vector.replicate _ 7) 68).take 10)).state.panel.glass := by
  refine (@front_shows_verdicts (fun _ => zeros _) (fun _ => List.Vector.replicate _ 7) benchFront
    blankEeprom blankEeprom (nineOf (ascii "0a1b2c3d") (zeros _) 53)
    (nineOf (ascii "deadbeef") (List.Vector.replicate _ 7) 68) ?_ (by decide +kernel) 10).1
  refine .cons (.event (.gate (.edit rfl nofun rfl nofun))) ?_
  rw [List.forall₂_iff_zip, List.zip_replicate']
  refine ⟨rfl, fun hmem => ?_⟩
  cases List.eq_of_mem_replicate hmem
  exact .event (.gate (.key _ _ _))

/-- The panel sees the passes and nothing else of the run. -/
theorem frontRun_panel (b : FrontBoot) (eeprom : Eeprom) (ops : List (Timed FrontEvent)) :
    (frontRun hash b eeprom ops).state.panel = passRun b.panel b.fb (passesOf hash b eeprom ops) := by
  induction ops using List.reverseRecOn with
  | nil => rfl
  | append_singleton ops e ih =>
    have hlog : passesOf hash b eeprom (ops ++ [e]) =
        passesOf hash b eeprom ops ++ timedTell passAt (frontRun hash b eeprom ops) e := by
      rw [passesOf, logOf_append, logOf, logOf, List.append_nil]
      rfl
    rw [hlog, passRun, exec_append, frontRun, exec_concat]
    change _ = exec panelPass (passRun b.panel b.fb (passesOf hash b eeprom ops)) _
    rw [← ih]
    rcases e with ms | e | _ | durationMs | ⟨now, turns, power⟩ <;> rfl

theorem passesOf_power {b : FrontBoot} {eeprom : Eeprom} {ops : List (Timed FrontEvent)} {p : LoopPass}
    (hp : p ∈ passesOf hash b eeprom ops) :
    ∃ now turns, .event (.render now turns p.power) ∈ ops := by
  obtain ⟨⟨s, e⟩, hmem, hpass⟩ := mem_logOf hp
  have he : e ∈ (trace (timedStep (frontAct hash)) ⟨0, frontStart b eeprom⟩ ops).map Prod.snd :=
    List.mem_map_of_mem hmem
  rw [trace_map_snd] at he
  rcases e with ms | e | _ | durationMs | ⟨now, turns, power⟩
  · cases hpass
  · cases hpass
  · cases hpass
  · cases hpass
  · obtain rfl := List.mem_singleton.mp hpass
    exact ⟨now, turns, he⟩

/-- Whatever the bus refused before, the glass is as the passes of the main loop have left it. -/
theorem glass_follows (b : FrontBoot) (hb : b.panel.Answers) (eeprom : Eeprom)
    (ops : List (Timed FrontEvent))
    (hhonest : ∀ now turns power, .event (.render now turns power) ∈ ops → power.Honest) :
    GlassOf (passesOf hash b eeprom ops) (frontRun hash b eeprom ops).state.panel.glass := by
  rw [frontRun_panel]
  refine passRun_glass hb b.fb fun p hp => ?_
  obtain ⟨now, turns, hmem⟩ := passesOf_power hp
  exact hhonest now turns p.power hmem

/-- A key is pressed, and the pass that shows it comes through. -/
def oneKeyShown : List (Timed FrontEvent) :=
  [.event (.gate (.key 53 ⟨0, 10⟩)), .event (.render ⟨0, 10⟩ (turnsBut none) ⟨true, true⟩)]

theorem glass_follows_oneKeyShown :
    (frontRun (fun _ => zeros _) benchFront blankEeprom oneKeyShown).state.panel.glass =
      ((passesOf (fun _ => zeros _) benchFront blankEeprom oneKeyShown).map LoopPass.frame).head? := by
  have hglass := @glass_follows (fun _ => zeros _) benchFront ⟨rfl, rfl, rfl⟩ blankEeprom oneKeyShown (by
    rintro now turns power hmem hrefused
    simp only [oneKeyShown, List.mem_cons, Timed.event.injEq, FrontEvent.render.injEq, reduceCtorEq,
      List.not_mem_nil, or_false, false_or] at hmem
    rw [hmem.2.2] at hrefused
    cases hrefused)
  exact hglass.lit [] _ [] rfl (by decide +kernel) nofun (fun _ => ⟨rfl, rfl⟩) rfl nofun

end GateAccess
