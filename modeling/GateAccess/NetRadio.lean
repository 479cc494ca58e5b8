import GateAccess.CredCheck
import GateAccess.FormRoundTrip
import GateAccess.TryCredentials
import GateAccess.WifiCreds

namespace GateAccess

inductive WifiMode
  | sta | ap | apsta
  deriving DecidableEq

/-- What `net_link.c` asks of the WiFi driver; `init` with the two interfaces it needs. -/
inductive RadioCall
  | init
  | setMode (mode : WifiMode)
  | setApConfig (ssid password : List UInt8)
  | setStaConfig (cfg : StaConfig)
  | start
  | stop
  | connect
  | disconnect
  | scanStart
  | scanRecords
  deriving DecidableEq

/-- The statics of `net_link.c`, and every call of the driver so far with whether it succeeded. -/
structure NetRadio where
  link : NetLink
  wantAp : Bool
  wifiInited : Bool
  wifiStarted : Bool
  log : List (RadioCall × Bool)

def netRadioInit : NetRadio :=
  ⟨⟨false, false, false, false, false, netRetryInit 0⟩, false, false, false, []⟩

/-- What the successful calls have made of the driver. -/
structure OnAir where
  mode : Option WifiMode
  started : Bool
  ap : Option (List UInt8 × List UInt8)
  sta : Option StaConfig
  deriving DecidableEq

def OnAir.after (d : OnAir) : RadioCall × Bool → OnAir
  | (.setMode mode, true) => { d with mode := some mode }
  | (.setApConfig ssid password, true) => { d with ap := some (ssid, password) }
  | (.setStaConfig cfg, true) => { d with sta := some cfg }
  | (.start, true) => { d with started := true }
  | (.stop, true) => { d with started := false }
  | _ => d

def onAir (log : List (RadioCall × Bool)) : OnAir := log.foldl OnAir.after ⟨none, false, none, none⟩

/-- Events of the driver that `on_wifi` and `on_ip` act on. -/
inductive RadioEvent
  | staStart
  | disconnected (nowMs : UInt32)
  | gotIp
  deriving DecidableEq

-- whether the driver's n-th call succeeds
variable (ok : Nat → Bool)

def NetRadio.call (r : NetRadio) (call : RadioCall) : NetRadio × Bool :=
  ({ r with log := r.log ++ [(call, ok r.log.length)] }, ok r.log.length)

/-- `if (err == ESP_OK) err = next();` -/
def okThen (done : NetRadio × Bool) (next : NetRadio → NetRadio × Bool) : NetRadio × Bool :=
  if done.2 then next done.1 else done

def applyMode (r : NetRadio) : NetRadio × Bool :=
  if r.wantAp && r.link.wantSta then r.call ok (.setMode .apsta)
  else if r.wantAp then r.call ok (.setMode .ap)
  else if r.link.wantSta then r.call ok (.setMode .sta)
  else
    let stopped := r.call ok .stop
    if stopped.2 then ({ stopped.1 with wifiStarted := false }, true) else stopped

def ensureStarted (r : NetRadio) : NetRadio × Bool :=
  if r.wifiStarted then (r, true)
  else
    let started := r.call ok .start
    if started.2 then ({ started.1 with wifiStarted := true }, true) else started

def ensureWifi (r : NetRadio) : NetRadio × Bool :=
  if r.wifiInited then (r, true)
  else
    let inited := r.call ok .init
    if inited.2 then ({ inited.1 with wifiInited := true }, true) else inited

def onRadioEvent (r : NetRadio) : RadioEvent → NetRadio
  | .staStart => if r.link.wantJoin then (r.call ok .connect).1 else r
  | .disconnected nowMs => { r with link := onDisconnected r.link nowMs }
  | .gotIp => { r with link := onGotIp r.link }

/-- The credentials are those that `prov_nvs_load` finds. -/
def netLinkStaStart (r : NetRadio) (creds : Option (List UInt8 × List UInt8)) : NetRadio × Bool :=
  match creds with
  | none => (r, false)
  | some (ssid, psk) =>
    let inited := ensureWifi ok r
    if !inited.2 then inited
    else
      let wasStarted := inited.1.wifiStarted
      let r := { inited.1 with link := { inited.1.link with wantSta := true, wantJoin := true } }
      let configured := okThen (applyMode ok r) fun r =>
        r.call ok (.setStaConfig (staConfigure ssid (some psk)))
      -- a driver that starts now reports it, and that event connects
      okThen (okThen configured (ensureStarted ok)) fun r =>
        if wasStarted then ((r.call ok .connect).1, true) else (r, true)

def netLinkStaStop (r : NetRadio) : NetRadio :=
  if !r.link.wantSta then r
  else
    let link := { r.link with wantSta := false, wantJoin := false, staConnected := false }
    let r := ({ r with link := link }.call ok .disconnect).1
    (applyMode ok r).1

def netLinkTickRadio (r : NetRadio) (nowMs : UInt32) : NetRadio :=
  let ticked := netLinkTick r.link nowMs
  let r := { r with link := ticked.1 }
  if ticked.2 then (r.call ok .connect).1 else r

/-- `PORTAO-%02X%02X%02X` of the last three bytes of the address. -/
def apSsid (mac : Bytes 6) : List UInt8 :=
  ascii "PORTAO-" ++
    (mac.toList.drop 3).flatMap fun b : UInt8 => [hexDigitUpper (b >>> 4), hexDigitUpper (b &&& 15)]

/-- The SSID when it succeeds. -/
def netLinkApUp (r : NetRadio) (password : CText) (mac : Bytes 6) :
    NetRadio × Option (List UInt8) :=
  if !apPassphraseTaken password then (r, none)
  else
    let inited := ensureWifi ok r
    if !inited.2 then (inited.1, none)
    else
      let configured := okThen (applyMode ok { inited.1 with wantAp := true }) fun r =>
        r.call ok (.setApConfig (apSsid mac) (password.getD []))
      let started := okThen configured (ensureStarted ok)
      if started.2 then (started.1, some (apSsid mac))
      else ((applyMode ok { started.1 with wantAp := false }).1, none)

def netLinkApDown (r : NetRadio) : NetRadio :=
  if !r.wantAp then r else (applyMode ok { r with wantAp := false }).1

/-- Whether a scan came back with records. -/
def netLinkScan (r : NetRadio) : NetRadio × Bool :=
  let inited := ensureWifi ok r
  if !inited.2 then inited
  else
    let r := inited.1
    let addedSta := !r.link.wantSta
    let r :=
      if addedSta then
        (ensureStarted ok (applyMode ok { r with link := { r.link with wantSta := true } }).1).1
      else r
    let found := okThen (r.call ok .scanStart) fun r => r.call ok .scanRecords
    let r := found.1
    (if addedSta then (applyMode ok { r with link := { r.link with wantSta := false } }).1 else r,
      found.2)

/-- `xEventGroupWaitBits` while events are handled: it ends at the first bit, or when the time is
up. -/
def waitForBits (r : NetRadio) : List RadioEvent → NetRadio × Bool
  | [] => ({ r with link := { r.link with gotIp := false, staFail := false } }, r.link.gotIp)
  | e :: during =>
    if r.link.gotIp || r.link.staFail then
      ({ r with link := { r.link with gotIp := false, staFail := false } }, r.link.gotIp)
    else waitForBits (onRadioEvent ok r e) during

/-- `during` is what the driver reports while the call waits, `previous` what NVS holds. -/
def netLinkTryCredentials (r : NetRadio) (ssid psk : List UInt8)
    (previous : Option (List UInt8 × List UInt8)) (during : List RadioEvent) : NetRadio × Bool :=
  if (cstr ssid).length = 0 then (r, false)
  else
    let inited := ensureWifi ok r
    if !inited.2 then inited
    else
      let r := inited.1
      let hadSta := r.link.wantSta
      let hadJoin := r.link.wantJoin
      let r := { r with link := { r.link with wantSta := true, wantJoin := true } }
      let r := (ensureStarted ok (applyMode ok r).1).1
      let r := (r.call ok .disconnect).1
      let r := { r with link := { r.link with gotIp := false, staFail := false } }
      let connected := okThen (r.call ok (.setStaConfig (staConfigure ssid (some psk)))) fun r =>
        r.call ok .connect
      let waited := okThen connected fun r => waitForBits ok r during
      let r := (waited.1.call ok .disconnect).1
      let r :=
        match previous with
        | none => r
        | some (ssid, psk) => (r.call ok (.setStaConfig (staConfigure ssid (some psk)))).1
      let r := { r with link := { r.link with wantSta := hadSta, wantJoin := hadJoin } }
      let r := (applyMode ok r).1
      (if hadJoin then (r.call ok .connect).1 else r, waited.2)

inductive RadioRequest
  | staStart (creds : Option (List UInt8 × List UInt8))
  | staStop
  | apUp (password : CText) (mac : Bytes 6)
  | apDown
  | scan
  | tryCredentials (ssid psk : List UInt8) (previous : Option (List UInt8 × List UInt8))
      (during : List RadioEvent)
  | tick (nowMs : UInt32)
  | event (e : RadioEvent)

def radioStep (r : NetRadio) : RadioRequest → NetRadio
  | .staStart creds => (netLinkStaStart ok r creds).1
  | .staStop => netLinkStaStop ok r
  | .apUp password mac => (netLinkApUp ok r password mac).1
  | .apDown => netLinkApDown ok r
  | .scan => (netLinkScan ok r).1
  | .tryCredentials ssid psk previous during =>
    (netLinkTryCredentials ok r ssid psk previous during).1
  | .tick nowMs => netLinkTickRadio ok r nowMs
  | .event e => onRadioEvent ok r e

abbrev radioRun (calls : List RadioRequest) : NetRadio := exec (radioStep ok) netRadioInit calls

end GateAccess
