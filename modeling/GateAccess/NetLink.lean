import GateAccess.WrapClock

namespace GateAccess

def netRetryFirstMs : UInt32 := 1000
def netRetryMaxMs : UInt32 := 60000

structure NetRetry where
  connected : Bool
  failures : UInt8
  delayMs : UInt32
  nextTryMs : UInt32
  deriving DecidableEq

def netRetryInit (nowMs : UInt32) : NetRetry := ⟨false, 0, netRetryFirstMs, nowMs⟩

def netRetryDue (r : NetRetry) (nowMs : UInt32) : Bool :=
  if r.connected then false else signed (nowMs - r.nextTryMs) ≥ 0

def netRetryFailed (r : NetRetry) (nowMs : UInt32) : NetRetry where
  connected := false
  failures := if r.failures < 255 then r.failures + 1 else r.failures
  nextTryMs := nowMs + r.delayMs
  delayMs :=
    let next := r.delayMs * 2
    if next > netRetryMaxMs || next < r.delayMs then netRetryMaxMs else next

def netRetryConnected (r : NetRetry) : NetRetry :=
  { r with connected := true, failures := 0, delayMs := netRetryFirstMs }

def netRetryDisconnected (nowMs : UInt32) : NetRetry := ⟨false, 0, netRetryFirstMs, nowMs⟩

/-- The statics of `net_link.c` that the station uses, and the two bits of its event group. -/
structure NetLink where
  wantSta : Bool
  wantJoin : Bool
  staConnected : Bool
  gotIp : Bool
  staFail : Bool
  retry : NetRetry
  deriving DecidableEq

/-- `on_wifi` at WIFI_EVENT_STA_DISCONNECTED. -/
def onDisconnected (l : NetLink) (nowMs : UInt32) : NetLink :=
  let wasConnected := l.staConnected
  let l := { l with staConnected := false, staFail := true }
  if !l.wantJoin then l
  else if wasConnected then { l with retry := netRetryDisconnected nowMs }
  else { l with retry := netRetryFailed l.retry nowMs }

@[simp] theorem onDisconnected_gotIp (l : NetLink) (nowMs : UInt32) :
    (onDisconnected l nowMs).gotIp = l.gotIp := by
  simp only [onDisconnected]
  split_ifs <;> rfl

@[simp] theorem onDisconnected_staFail (l : NetLink) (nowMs : UInt32) :
    (onDisconnected l nowMs).staFail = true := by
  simp only [onDisconnected]
  split_ifs <;> rfl

/-- `on_ip`, up to the clock it then asks for. -/
def onGotIp (l : NetLink) : NetLink :=
  { l with staConnected := true, retry := netRetryConnected l.retry, gotIp := true }

/-- The flag says whether the tick starts a connect. -/
def netLinkTick (l : NetLink) (nowMs : UInt32) : NetLink × Bool :=
  if !l.wantJoin || l.staConnected then (l, false)
  else if netRetryDue l.retry nowMs then ({ l with retry := netRetryFailed l.retry nowMs }, true)
  else (l, false)

/-- A station that has an address. -/
def linkUp : NetLink := ⟨true, true, true, false, false, ⟨true, 0, netRetryFirstMs, 0⟩⟩

end GateAccess
