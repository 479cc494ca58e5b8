import GateAccess.SyncClient
import GateAccess.TgClient
import GateAccess.DevConsole
import GateAccess.Traces

namespace GateAccess

/-- What a build and its credentials fix for good; both channels share one delivery key. -/
structure DeviceCfg where
  sync : SyncClientCfg
  courierOn : Bool
  hash : List UInt8 → Bytes acHashLen
  maxFailedAttempts : UInt8
  lockoutSeconds : Int

structure BootInputs where
  attempts : UInt8
  lockoutUntil : Int
  clockOk : Bool
  nowMs : UInt32

structure Stored where
  eeprom : Eeprom
  nvsGen : Nat
  nvsCounter : Nat
  nvsOffset : Nat

structure Device where
  access : AcCtx
  sync : SyncCtx
  nvsGen : Nat
  tg : TgState
  eeprom : Eeprom
  devCodes : UInt32

def Device.stored (d : Device) : Stored := ⟨d.eeprom, d.nvsGen, d.tg.nvsCounter, d.tg.nvsOffset⟩

/-- The courier at boot: both numbers restored, or left at zero when it stays off. -/
def bootCourier (cfg : DeviceCfg) (nvsCounter nvsOffset : Nat) (nowMs : UInt32) : TgState :=
  if cfg.courierOn then tgClientInit nvsCounter nvsOffset nowMs
  else ⟨⟨0, 0, 0, 0, false, false, false⟩, 0, nvsCounter, nvsOffset⟩

/-- `app_main` up to its loop, on what the chip and NVS hold. -/
def powerUp (cfg : DeviceCfg) (s : Stored) (b : BootInputs) : Device where
  access := { persistCodesLoad (acRestoreAttempts (acInit cfg.maxFailedAttempts cfg.lockoutSeconds)
    b.attempts b.lockoutUntil) s.eeprom with clockTrusted := b.clockOk }
  sync := if cfg.sync.keyOk then syncInit s.nvsGen 0 else syncInit 0 0
  nvsGen := s.nvsGen
  tg := bootCourier cfg s.nvsCounter s.nvsOffset b.nowMs
  eeprom := s.eeprom
  devCodes := 0

/-- A boot brings back the codes on the chip and nothing else. -/
theorem powerUp_guest (cfg : DeviceCfg) (s : Stored) (b : BootInputs) (i : Fin acMaxSlots) :
    ((powerUp cfg s b).access.slots i).guest = (s.eeprom i).guest :=
  persistCodesLoad_guest s.eeprom rfl

theorem powerUp_transient (cfg : DeviceCfg) (s : Stored) (b : BootInputs) {i : Fin acMaxSlots}
    (h : ((powerUp cfg s b).access.slots i).occupied = true) :
    ((powerUp cfg s b).access.slots i).transient = false :=
  persistCodesLoad_transient (acRestoreAttempts (acInit cfg.maxFailedAttempts cfg.lockoutSeconds)
    b.attempts b.lockoutUntil) s.eeprom rfl h

inductive DeviceEvent
  | poll (fetched : Option (List UInt8)) (atMs : UInt32)
  | update (u : TgUpdate)
  | courier (resp : TgResponse) (nowMs : UInt32)
  | console (cmd : ConsoleCmd)
  | portalClosed
  | clockTrusted (trusted : Bool)
  | attempt (hash : Bytes acHashLen) (now : Int)
  | tick (now : Int)
  | reboot (b : BootInputs)

variable (cfg : DeviceCfg)

def deviceStep (d : Device) : DeviceEvent → Device
  | .poll fetched atMs =>
    let out := doSync cfg.sync d.sync d.access d.nvsGen fetched atMs
    { d with sync := out.1, access := out.2.1, nvsGen := out.2.2.1 }
  | .update u =>
    if cfg.courierOn then
      let out := handleUpdate cfg.sync.mac d.tg d.access u
      { d with tg := out.1, access := out.2 }
    else d
  | .courier resp nowMs => if cfg.courierOn then { d with tg := courierTail d.tg resp nowMs } else d
  | .console cmd =>
    let out := cmdCode cfg.hash ⟨d.access, d.eeprom, d.devCodes⟩ cmd
    { d with access := out.ac, eeprom := out.eeprom, devCodes := out.devCodes }
  | .portalClosed => { d with access := acRevokeTransient d.access }
  | .clockTrusted trusted => { d with access := { d.access with clockTrusted := trusted } }
  | .attempt hash now => { d with access := (acEvaluate d.access hash now).1 }
  | .tick now => { d with access := acTick d.access now }
  | .reboot b => powerUp cfg d.stored b

/-- The device after a boot and what happened since, further boots included. -/
abbrev deviceRun (s : Stored) (b : BootInputs) (es : List DeviceEvent) : Device :=
  exec (deviceStep cfg) (powerUp cfg s b) es

theorem deviceRun_concat (s : Stored) (b : BootInputs) (es : List DeviceEvent) (e : DeviceEvent) :
    deviceRun cfg s b (es ++ [e]) = deviceStep cfg (deviceRun cfg s b es) e := by
  rw [deviceRun, exec_append]
  rfl

/-- The steps of a whole request to Telegram: one for each update, one for how it came out. -/
theorem pollOnce_exec (hc : cfg.courierOn = true) (d : Device) (us : List TgUpdate) (nowMs : UInt32) :
    exec (deviceStep cfg) d (us.map .update ++ [.courier (.updates us) nowMs]) =
      { d with
        tg := (pollOnce cfg.sync.mac d.tg d.access (.updates us) nowMs).1
        access := (pollOnce cfg.sync.mac d.tg d.access (.updates us) nowMs).2 } := by
  have hbody : ∀ d : Device, exec (deviceStep cfg) d (us.map .update) =
      { d with
        tg := (handleBody cfg.sync.mac d.tg d.access us).1
        access := (handleBody cfg.sync.mac d.tg d.access us).2 } := by
    induction us with
    | nil => intro d; rfl
    | cons u us ih =>
      intro d
      rw [List.map_cons, exec_cons, ih]
      simp [deviceStep, hc, handleBody]
  rw [exec_append, hbody]
  simp [deviceStep, hc, pollOnce, courierTail]

def blankChip : Eeprom := fun _ => ⟨List.Vector.replicate _ 0xFF, List.Vector.replicate _ 0xFF⟩

def blankStored : Stored := ⟨blankChip, 0, 0, 0⟩

def coldBoot : BootInputs := ⟨0, 0, true, 0⟩

/-- A device with a constant signature and a constant hash. -/
def plainCfg : DeviceCfg where
  sync := ⟨ascii "gate", fun _ => some (List.Vector.replicate _ 48), true⟩
  courierOn := true
  hash := fun _ => zeros _
  maxFailedAttempts := 5
  lockoutSeconds := 300

def plainBody (lines : String) : List UInt8 :=
  ascii "portao-sync v1\ngate gate\n" ++ ascii lines ++ ascii "end\nmac " ++ List.replicate 64 48

def emptyBody : List UInt8 := plainBody "gen 5\n"

def pushedAdd : TgUpdate :=
  ⟨some 1, some ⟨some (ascii "v1|1|add|0a1b2c3d|" ++ List.replicate 64 48 ++
    ascii "|0|4000000000|" ++ List.replicate 64 48)⟩, none⟩

def pushedMsg : TgMsg := ⟨1, .add, idField (ascii "0a1b2c3d"), zeros _, 0, 4000000000⟩

theorem taken_pushedAdd {st : TgState} {m : TgMsg}
    (h : taken plainCfg.sync.mac st pushedAdd = some m) : m = pushedMsg := by
  obtain ⟨text, htext, hparse⟩ := taken_parse h
  have fresh : taken plainCfg.sync.mac (tgClientInit 0 0 0) pushedAdd = some pushedMsg := by
    decide +kernel
  obtain ⟨text', htext', hparse'⟩ := taken_parse fresh
  obtain rfl := Option.some.inj (htext.symm.trans htext')
  exact tgParse_unique hparse hparse'

end GateAccess
