import GateAccess.BodyBuffer
import GateAccess.Device
import GateAccess.SyncInterleaved

namespace GateAccess

/-- What comes of a request besides its body: whether a client could be made, whether its transfer
succeeded, and the status. -/
structure HttpOutcome where
  opened : Bool
  performed : Bool
  status : Int

def tgBodyMax : Nat := 6144

/-- `fetch` of the sync client up to the transfer. -/
def syncFetchStart (_stale : BodyBuffer syncBodyMax) : BodyBuffer syncBodyMax := ⟨zeros _, 0⟩

/-- The rest of `fetch`: the body as a string when there is one. -/
def syncFetchEnd (b : BodyBuffer syncBodyMax) (x : HttpOutcome) :
    BodyBuffer syncBodyMax × Option (List UInt8) :=
  if !x.opened then (b, none)
  else if !x.performed then (b, none)
  else if x.status ≠ 200 then (b, none)
  else if b.len = 0 then (b, none)
  else if b.len > syncBodyMax then (b, none)
  else
    let b := b.terminated
    (b, some (cstr b.bytes.toList))

def tgUrlSize : Nat := 320

/-- The request line of the courier; 50 is the long poll, 5 the batch. -/
def tgUrl (botToken : List UInt8) (offset : Nat) : List UInt8 :=
  ascii "https://api.telegram.org/bot" ++ cstr botToken ++ ascii "/getUpdates" ++
    ascii "?offset=" ++ decimal offset ++ ascii "&timeout=50&limit=5"

/-- `fetch_updates` up to the transfer. What an earlier response left in the buffer is not cleared. -/
def fetchUpdatesStart (stale : BodyBuffer tgBodyMax) : BodyBuffer tgBodyMax :=
  ⟨putByte stale.bytes 0 0, 0⟩

/-- The rest of `fetch_updates`: the status, and the body as a string when the transfer succeeded. A
request line that does not fit ends it before there is a transfer. -/
def fetchUpdatesEnd (botToken : List UInt8) (offset : Nat) (b : BodyBuffer tgBodyMax)
    (x : HttpOutcome) : BodyBuffer tgBodyMax × Int × Option (List UInt8) :=
  if (tgUrl botToken offset).length ≥ tgUrlSize then (b, 0, none)
  else if !x.opened then (b, 0, none)
  else if !x.performed then (b, x.status, none)
  else if b.len > tgBodyMax then (b, x.status, none)
  else
    let b := b.terminated
    (b, x.status, some (cstr b.bytes.toList))

/-- The credentials of the two channels, and what the JSON library makes of a response: the updates of
a document that says `"ok": true`. -/
structure WireCfg where
  device : DeviceCfg
  botToken : List UInt8
  updates : List UInt8 → Option (List TgUpdate)

/-- A `uint64_t`, so the update after the last one there can be is update 0. -/
def tgPollNextOffset (ctx : TgPollCtx) : Nat :=
  if ctx.offset = 0 then 0 else (ctx.offset + 1) % 2 ^ 64

/-- How `poll_once` takes what `fetch_updates` returned. -/
def pollResponse (cfg : WireCfg) (status : Int) (fetched : Option (List UInt8)) : TgResponse :=
  if status = 401 ∨ status = 404 then .badToken
  else
    match fetched with
    | none => .failed
    | some text =>
      if status ≠ 200 then .failed
      else
        match cfg.updates text with
        | none => .failed
        | some us => .updates us

/-- Where the courier's task is: between two requests, waiting for one, or in the loop of
`handle_body` with these updates to go. -/
inductive TgPhase (α : Type)
  | idle
  | asking (request : α)
  | handling (left : List TgUpdate)

def TgPhase.map {α β : Type} (f : α → β) : TgPhase α → TgPhase β
  | .idle => .idle
  | .asking request => .asking (f request)
  | .handling left => .handling left

def TgPhase.isIdle {α : Type} : TgPhase α → Bool
  | .idle => true
  | _ => false

/-- What the device does apart from its two channels and short of a boot. -/
def DeviceEvent.isLocal : DeviceEvent → Bool
  | .poll _ _ | .update _ | .courier _ _ | .reboot _ => false
  | _ => true

/-- The device, the two buffers its requests are collected in, and the requests under way: the sync
client's with the clock each caller read before it, the courier's with the offset it asked for. Both
callers of `fetch` share the one buffer. -/
structure WireDevice where
  device : Device
  syncBody : BodyBuffer syncBodyMax
  syncCalls : SyncCaller → Option UInt32
  tgBody : BodyBuffer tgBodyMax
  tgPhase : TgPhase Nat

/-- A request of either channel begins, gets a piece of its body, or comes back; the courier goes on
to the next update or, after the last, ends its poll; anything else the device does, and a boot. -/
inductive WireEvent
  | syncBegins (who : SyncCaller) (online : Bool) (atMs : UInt32)
  | syncData (who : SyncCaller) (data : List UInt8)
  | syncEnds (who : SyncCaller) (x : HttpOutcome)
  | tgBegins (online : Bool) (atMs : UInt32)
  | tgData (data : List UInt8)
  | tgEnds (x : HttpOutcome) (doneMs : UInt32)
  | tgNext (nowMs : UInt32)
  | other (e : { e : DeviceEvent // e.isLocal = true })
  | reboot (b : BootInputs)

variable (cfg : WireCfg)

/-- Whether a caller begins a call: not while in one, and the sync task not before a poll is due. -/
def syncAsks {α : Type} (device : Device) (call : Option α) (who : SyncCaller) (online : Bool)
    (atMs : UInt32) : Bool :=
  call.isNone && cfg.device.sync.keyOk &&
    match who with
    | .syncTask => online && syncDue device.sync atMs
    | .console => true

/-- Whether the courier's task is back in its loop and makes a request. -/
def courierAsks {α : Type} (device : Device) (phase : TgPhase α) (online : Bool) (atMs : UInt32) :
    Bool :=
  phase.isIdle && cfg.device.courierOn && !device.tg.poll.fatal &&
    tgPollDue device.tg.poll atMs online

/-- What the courier is told when its request from this offset comes back. -/
def courierAnswer (w : WireDevice) (offset : Nat) (x : HttpOutcome) : TgResponse :=
  let fetched := fetchUpdatesEnd cfg.botToken offset w.tgBody x
  pollResponse cfg fetched.2.1 fetched.2.2

def wireStep (w : WireDevice) : WireEvent → WireDevice
  | .syncBegins who online atMs =>
    if syncAsks cfg w.device (w.syncCalls who) who online atMs then
      { w with
        syncBody := syncFetchStart w.syncBody
        syncCalls := Function.update w.syncCalls who (some atMs) }
    else w
  | .syncData who data =>
    match w.syncCalls who with
    | none => w
    | some _ => { w with syncBody := w.syncBody.onData data }
  | .syncEnds who x =>
    match w.syncCalls who with
    | none => w
    | some atMs =>
      let fetched := syncFetchEnd w.syncBody x
      let out := doSync cfg.device.sync w.device.sync w.device.access w.device.nvsGen fetched.2 atMs
      { w with
        syncBody := fetched.1
        syncCalls := Function.update w.syncCalls who none
        device := { w.device with sync := out.1, access := out.2.1, nvsGen := out.2.2.1 } }
  | .tgBegins online atMs =>
    if courierAsks cfg w.device w.tgPhase online atMs then
      { w with
        tgBody := fetchUpdatesStart w.tgBody
        tgPhase := .asking (tgPollNextOffset w.device.tg.poll) }
    else w
  | .tgData data =>
    match w.tgPhase with
    | .asking _ => { w with tgBody := w.tgBody.onData data }
    | _ => w
  | .tgEnds x doneMs =>
    match w.tgPhase with
    | .asking offset =>
      let w' := { w with tgBody := (fetchUpdatesEnd cfg.botToken offset w.tgBody x).1 }
      match courierAnswer cfg w offset x with
      | .updates us => { w' with tgPhase := .handling us }
      | resp =>
        { w' with
          tgPhase := .idle
          device := { w.device with tg := courierTail w.device.tg resp doneMs } }
    | _ => w
  | .tgNext nowMs =>
    match w.tgPhase with
    | .handling (u :: left) =>
      let out := handleUpdate cfg.device.sync.mac w.device.tg w.device.access u
      { w with tgPhase := .handling left, device := { w.device with tg := out.1, access := out.2 } }
    | .handling [] =>
      { w with
        tgPhase := .idle
        device := { w.device with tg := courierTail w.device.tg (.updates []) nowMs } }
    | _ => w
  | .other e => { w with device := deviceStep cfg.device w.device e }
  | .reboot b =>
    ⟨deviceStep cfg.device w.device (.reboot b), ⟨zeros _, 0⟩, fun _ => none, ⟨zeros _, 0⟩, .idle⟩

/-- A call of the sync client: the clock read before it, and all that has arrived for it. -/
abbrev SyncCall := UInt32 × List UInt8

/-- The device with no buffers: each request keeps its own body. -/
structure WholeDevice where
  device : Device
  syncCalls : SyncCaller → Option SyncCall
  tgPhase : TgPhase (Nat × List UInt8)

/-- The body a sync brings, as a whole. -/
def HttpOutcome.syncBody (x : HttpOutcome) (body : List UInt8) : Option (List UInt8) :=
  if x.opened = true ∧ x.performed = true ∧ x.status = 200 ∧ body ≠ [] ∧ body.length ≤ syncBodyMax
  then some (cstr body) else none

/-- The body a courier request brings, as a whole. -/
def HttpOutcome.tgBody (x : HttpOutcome) (body : List UInt8) : Option (List UInt8) :=
  if x.performed = true ∧ body.length ≤ tgBodyMax then some (cstr body) else none

/-- What the courier is told of a request that asked from this offset. -/
def HttpOutcome.response (x : HttpOutcome) (offset : Nat) (body : List UInt8) : TgResponse :=
  if (tgUrl cfg.botToken offset).length ≥ tgUrlSize ∨ x.opened = false then .failed
  else pollResponse cfg x.status (x.tgBody body)

/-- The same events with whole bodies: a poll of the device for each sync, and for each request of the
courier its updates one by one and then how it came out. -/
def wholeStep (d : WholeDevice) : WireEvent → WholeDevice
  | .syncBegins who online atMs =>
    if syncAsks cfg d.device (d.syncCalls who) who online atMs then
      { d with syncCalls := Function.update d.syncCalls who (some (atMs, [])) }
    else d
  | .syncData who data =>
    match d.syncCalls who with
    | none => d
    | some (atMs, got) =>
      { d with syncCalls := Function.update d.syncCalls who (some (atMs, got ++ data)) }
  | .syncEnds who x =>
    match d.syncCalls who with
    | none => d
    | some (atMs, got) =>
      { d with
        syncCalls := Function.update d.syncCalls who none
        device := deviceStep cfg.device d.device (.poll (x.syncBody got) atMs) }
  | .tgBegins online atMs =>
    if courierAsks cfg d.device d.tgPhase online atMs then
      { d with tgPhase := .asking (tgPollNextOffset d.device.tg.poll, []) }
    else d
  | .tgData data =>
    match d.tgPhase with
    | .asking (offset, got) => { d with tgPhase := .asking (offset, got ++ data) }
    | _ => d
  | .tgEnds x doneMs =>
    match d.tgPhase with
    | .asking (offset, got) =>
      match x.response cfg offset got with
      | .updates us => { d with tgPhase := .handling us }
      | resp =>
        { d with
          tgPhase := .idle
          device := deviceStep cfg.device d.device (.courier resp doneMs) }
    | _ => d
  | .tgNext nowMs =>
    match d.tgPhase with
    | .handling (u :: left) =>
      { d with
        tgPhase := .handling left
        device := deviceStep cfg.device d.device (.update u) }
    | .handling [] =>
      { d with
        tgPhase := .idle
        device := deviceStep cfg.device d.device (.courier (.updates []) nowMs) }
    | _ => d
  | .other e => { d with device := deviceStep cfg.device d.device e }
  | .reboot b => ⟨deviceStep cfg.device d.device (.reboot b), fun _ => none, .idle⟩

variable {cfg}

theorem syncFetchEnd_body {b : BodyBuffer syncBodyMax} {body : List UInt8} (h : b.Collects body)
    (x : HttpOutcome) : (syncFetchEnd b x).2 = x.syncBody body := by
  have hlen := h.len
  unfold syncFetchEnd HttpOutcome.syncBody
  cases hopened : x.opened with
  | false => simp
  | true =>
    cases hperformed : x.performed with
    | false => simp
    | true =>
      by_cases hstatus : x.status = 200
      · by_cases hfits : body.length ≤ syncBodyMax
        · rw [if_pos hfits] at hlen
          by_cases hempty : body = []
          · have hzero : b.len = 0 := by rw [hlen, hempty]; rfl
            simp [hstatus, hzero, hempty]
          · have hsome : b.len ≠ 0 := by rw [hlen]; exact mt List.length_eq_zero_iff.mp hempty
            have hroom : ¬b.len > syncBodyMax := by omega
            simp [hstatus, hsome, hroom, h.text hfits, hempty, hfits]
        · rw [if_neg hfits] at hlen
          have hsome : b.len ≠ 0 := by omega
          have hover : b.len > syncBodyMax := by omega
          simp [hstatus, hsome, hover, hfits]
      · simp [hstatus]

theorem fetchUpdatesEnd_body {b : BodyBuffer tgBodyMax} {body : List UInt8} (h : b.Collects body)
    (botToken : List UInt8) (offset : Nat) (x : HttpOutcome) :
    (fetchUpdatesEnd botToken offset b x).2 =
      if (tgUrl botToken offset).length ≥ tgUrlSize ∨ x.opened = false then (0, none)
      else (x.status, x.tgBody body) := by
  have hlen := h.len
  unfold fetchUpdatesEnd HttpOutcome.tgBody
  by_cases hurl : (tgUrl botToken offset).length ≥ tgUrlSize
  · simp [hurl]
  · cases hopened : x.opened with
    | false => simp
    | true =>
      cases hperformed : x.performed with
      | false => simp [hurl]
      | true =>
        by_cases hfits : body.length ≤ tgBodyMax
        · rw [if_pos hfits] at hlen
          have hroom : ¬b.len > tgBodyMax := by omega
          simp [hurl, hroom, h.text hfits, hfits]
        · rw [if_neg hfits] at hlen
          have hover : b.len > tgBodyMax := by omega
          simp [hurl, hover, hfits]

/-- What the courier is told is what the whole body says. -/
theorem courierAnswer_whole {w : WireDevice} {body : List UInt8} (h : w.tgBody.Collects body)
    (offset : Nat) (x : HttpOutcome) : courierAnswer cfg w offset x = x.response cfg offset body := by
  rw [courierAnswer, fetchUpdatesEnd_body h, HttpOutcome.response]
  split
  next => rfl
  next => rfl

end GateAccess
