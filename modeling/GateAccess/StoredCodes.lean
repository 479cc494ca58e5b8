import GateAccess.ChipWrites

namespace GateAccess

/-- The chip holds exactly the stored codes of the table, slot by slot. -/
def Mirrors (eeprom : Eeprom) (ac : AcCtx) : Prop :=
  ∀ i, (eeprom i).guest = (ac.slots i).guest

theorem Mirrors.setSlot {eeprom : Eeprom} {ac : AcCtx} (h : Mirrors eeprom ac)
    {i : Fin acMaxSlots} {s : AcSlot} (hs : s.guest = (ac.slots i).guest) :
    Mirrors eeprom (ac.setSlot i s) := by
  intro j
  by_cases hj : j = i
  · subst hj
    rw [setSlot_same, hs]
    exact h j
  · rw [setSlot_other ac s hj]
    exact h j

theorem Mirrors.save {eeprom : Eeprom} {ac : AcCtx} {i : Fin acMaxSlots}
    (h : ∀ j, j ≠ i → (eeprom j).guest = (ac.slots j).guest) (hs : Storable (ac.slots i))
    (ht : ((ac.slots i).occupied && (ac.slots i).transient) = false) :
    Mirrors (persistCodesSave ac eeprom i) ac := by
  intro j
  by_cases hj : j = i
  · subst hj
    exact persistCodesSave_guest eeprom hs ht
  · rw [persistCodesSave_other ac eeprom hj]
    exact h j hj

theorem Mirrors.clearSave {eeprom : Eeprom} {ac : AcCtx} (h : Mirrors eeprom ac)
    (i : Fin acMaxSlots) :
    Mirrors (persistCodesSave (ac.setSlot i .zero) eeprom i) (ac.setSlot i .zero) := by
  refine Mirrors.save (fun j hj => ?_) ?_ ?_
  · rw [setSlot_other ac _ hj]
    exact h j
  · simp [Storable, AcSlot.zero]
  · simp [AcSlot.zero]

theorem Mirrors.of_guests {eeprom : Eeprom} {ac ac' : AcCtx} (h : Mirrors eeprom ac)
    (hs : ∀ i, (ac'.slots i).guest = (ac.slots i).guest) : Mirrors eeprom ac' :=
  fun i => (h i).trans (hs i).symm

/-- An upsert that takes no slot, or leaves its slot with the stored code it had, needs no save. -/
theorem Mirrors.upsert {eeprom : Eeprom} {ac : AcCtx} (h : Mirrors eeprom ac) {id : List UInt8}
    {hash : Bytes acHashLen} {validFrom validUntil : Int} {transient : Bool}
    (hs : validUntil ≤ validFrom ∨ ∀ i, slotFor ac id = some i → (ac.slots i).guest =
      AcSlot.guest ⟨true, transient, idField id, hash, validFrom, validUntil⟩) :
    Mirrors eeprom (upsert ac id hash validFrom validUntil transient).1 := by
  rcases upsert_slotFor ac id hash validFrom validUntil transient with hr | ⟨i, hi, hw, hput⟩
  · rw [hr]
    exact h
  · rw [hput]
    exact h.setSlot (hs.resolve_left (by omega) i hi).symm

theorem Mirrors.acRevoke {eeprom : Eeprom} {ac : AcCtx} (h : Mirrors eeprom ac) {id : List UInt8}
    (hs : ∀ i, findById ac id = some i → (ac.slots i).guest = none) :
    Mirrors eeprom (acRevoke ac id).1 := by
  unfold GateAccess.acRevoke
  split
  next => exact h
  next i hi => exact h.setSlot (by rw [hs i hi]; rfl)

variable {hash : List UInt8 → Bytes acHashLen}

theorem Mirrors.eraseSlots {s : ConsoleState} (h : Mirrors s.eeprom s.ac) (all : Bool)
    (is : List (Fin acMaxSlots)) :
    Mirrors (is.foldl (eraseSlot all) s).eeprom (is.foldl (eraseSlot all) s).ac := by
  refine eraseSlots_keeps (I := fun s => Mirrors s.eeprom s.ac) (fun s i h => ?_) all is h
  refine Mirrors.save (fun j _ => h.clearSave i j) ?_ ?_
  · simp [Storable, AcSlot.zero]
  · simp [AcSlot.zero]

/-- What a console command must meet for the chip to follow: a dev code lands on no stored one, and
a stored one has a window the record can hold. -/
def ConsoleFits (s : ConsoleState) : ConsoleCmd → Prop
  | .add code _ _ => acFormatValid code = true → s.ac.clockTrusted = true →
      ∀ i, slotFor s.ac (devId (s.devCodes + 1)) = some i → (s.ac.slots i).guest = none
  | .persist code hours now => acFormatValid code = true → s.ac.clockTrusted = true →
      60 ≤ now ∧ now + persistSeconds hours < 2 ^ 32
  | _ => True

theorem persistSeconds_pos (hours : Int) : 0 < persistSeconds hours := by
  unfold persistSeconds
  split <;> omega

theorem cmdCode_mirrors {s : ConsoleState} {cmd : ConsoleCmd} (h : Mirrors s.eeprom s.ac)
    (hfit : ConsoleFits s cmd) :
    Mirrors (cmdCode hash s cmd).eeprom (cmdCode hash s cmd).ac := by
  have hs := cmdCode_step hash s cmd
  generalize cmdCode hash s cmd = out at hs ⊢
  generalize consoleSlots hash s cmd = slots at hs
  cases hs with
  | refused => exact h
  | added _ _ _ slot _ hf hc hslot =>
    refine h.setSlot ?_
    rw [hfit hf hc slot hslot]
    rfl
  | stored _ hours now slot ac hf hc hac =>
    obtain ⟨hfrom, huntil⟩ := hfit hf hc
    have hpos := persistSeconds_pos hours
    refine Mirrors.save (fun j hj => ?_) ?_ ?_
    · rw [hac, setSlot_other s.ac _ hj]
      exact h j
    · rw [hac, setSlot_same]
      intro _
      exact ⟨idField_terminated _, by dsimp only; omega, by dsimp only; omega,
        by dsimp only; omega, huntil⟩
    · rw [hac, setSlot_same]
      rfl
  | deleted _ _ slot ac hac =>
    dsimp only
    rw [hac]
    split
    next => exact h.clearSave slot
    next hw =>
      refine h.setSlot ?_
      have htr : (s.ac.slots slot).transient = true := by simpa using hw
      simp [AcSlot.zero, AcSlot.guest, htr]
  | erased all => exact h.eraseSlots all _
  | cleared => exact h.of_guests fun i => by simp [codeClear]

variable (cfg : DeviceCfg)

/-- What a step must meet for the chip to follow the table: no push or poll changes a stored code. -/
def ChipFollows (d : Device) : DeviceEvent → Prop
  | .poll fetched _ => cfg.sync.keyOk = true → ∀ set, delivered cfg.sync fetched = some set →
      Installs d.sync set → set.entries = [] ∧ ∀ i, (d.access.slots i).guest = none
  | .update u => cfg.courierOn = true → ∀ m, taken cfg.sync.mac d.tg u = some m →
      match m.op with
      | .add => m.validUntil ≤ m.validFrom ∨
          ∀ i, slotFor d.access m.id.toList = some i → (d.access.slots i).guest = some m.entry
      | .revoke => ∀ i, findById d.access m.id.toList = some i → (d.access.slots i).guest = none
  | .console cmd => ConsoleFits ⟨d.access, d.eeprom, d.devCodes⟩ cmd
  | _ => True

variable {cfg}

theorem deviceStep_mirrors {d : Device} {e : DeviceEvent} (h : Mirrors d.eeprom d.access)
    (hf : ChipFollows cfg d e) :
    Mirrors (deviceStep cfg d e).eeprom (deviceStep cfg d e).access := by
  cases e with
  | poll fetched atMs =>
    have hs := doSync_step cfg.sync d.sync d.access d.nvsGen fetched atMs
    simp only [deviceStep]
    generalize doSync cfg.sync d.sync d.access d.nvsGen fetched atMs = out at hs ⊢
    cases hs with
    | noKey | failed | unchanged | stale => exact h
    | installed set hkey hd _ hinst =>
      obtain ⟨hempty, hnone⟩ := hf hkey set hd hinst
      rw [hempty]
      refine h.of_guests fun i => ?_
      rw [hnone i]
      exact wipeGuest_guest _
  | update u =>
    simp only [deviceStep]
    split
    next hon =>
      rcases handleUpdate_step cfg.sync.mac d.tg d.access u with ⟨_, hsame, _⟩ | ⟨m, hm, happ, _⟩
      · dsimp only
        rw [hsame]
        exact h
      · have hfm := hf hon m hm
        obtain ⟨_, _, hline, _⟩ := taken_line hm
        have hid : idField m.id.toList = m.id := hline.backend.idField
        dsimp only
        rw [happ, tgApply]
        cases hop : m.op with
        | add =>
          rw [hop] at hfm
          refine h.upsert (hfm.imp_right fun hs i hi => ?_)
          rw [hs i hi, hid]
          rfl
        | revoke =>
          rw [hop] at hfm
          exact h.acRevoke hfm
    next => exact h
  | courier resp nowMs =>
    simp only [deviceStep]
    split <;> exact h
  | console cmd => exact cmdCode_mirrors (s := ⟨d.access, d.eeprom, d.devCodes⟩) h hf
  | portalClosed => exact h.of_guests fun i => by simp [deviceStep]
  | clockTrusted => exact h
  | attempt hash now => exact h.of_guests fun i => by simp [deviceStep]
  | tick now => exact h.of_guests fun i => by simp [deviceStep]
  | reboot b => exact fun i => (powerUp_guest cfg d.stored b i).symm

/-- In a run whose channels change no stored code, a power cut anywhere loses none and brings none
back: the next boot restores each to its slot. -/
theorem stored_codes_survive (s : Stored) (b : BootInputs) (es : List DeviceEvent)
    (follows : ∀ p ∈ trace (deviceStep cfg) (powerUp cfg s b) es, ChipFollows cfg p.1 p.2)
    (before after : List DeviceEvent) (hes : es = before ++ after) (b' : BootInputs)
    (i : Fin acMaxSlots) :
    ((powerUp cfg (deviceRun cfg s b before).stored b').access.slots i).guest =
      ((deviceRun cfg s b before).access.slots i).guest := by
  rw [powerUp_guest]
  have start : Mirrors (powerUp cfg s b).eeprom (powerUp cfg s b).access :=
    fun i => (powerUp_guest cfg s b i).symm
  have keeps : ∀ p ∈ trace (deviceStep cfg) (powerUp cfg s b) before,
      Mirrors p.1.eeprom p.1.access →
      Mirrors (deviceStep cfg p.1 p.2).eeprom (deviceStep cfg p.1 p.2).access := by
    intro p hp h
    refine deviceStep_mirrors h (follows p ?_)
    rw [hes]
    exact mem_trace_append hp _
  exact exec_induction (I := fun d : Device => Mirrors d.eeprom d.access) keeps start i

theorem stored_codes_survive_persist :
    ((powerUp plainCfg (deviceRun plainCfg blankStored coldBoot
      [.console (.persist (ascii "123456AB*") 24 1700000000)]).stored coldBoot).access.slots 0).guest =
        some ⟨idField (ascii "t553f100"), zeros _, 1699999940, 1700086400⟩ := by
  have follows : ∀ p ∈ trace (deviceStep plainCfg) (powerUp plainCfg blankStored coldBoot)
      [.console (.persist (ascii "123456AB*") 24 1700000000)], ChipFollows plainCfg p.1 p.2 := by
    intro p hp
    obtain rfl := List.mem_singleton.mp hp
    exact fun _ _ => by decide
  rw [stored_codes_survive blankStored coldBoot _ follows _ [] (List.append_nil _).symm coldBoot 0]
  decide +kernel

/-- A pushed code opens the door until the power fails, and is then forgotten. -/
theorem pushed_code_lost :
    (∃ i, ((deviceRun plainCfg blankStored coldBoot [.update pushedAdd]).access.slots i).guest =
      some pushedMsg.entry) ∧
    ∀ i, ((powerUp plainCfg (deviceRun plainCfg blankStored coldBoot [.update pushedAdd]).stored
      coldBoot).access.slots i).guest = none := by
  refine ⟨⟨0, by decide +kernel⟩, fun i => ?_⟩
  rw [powerUp_guest]
  rfl

end GateAccess
