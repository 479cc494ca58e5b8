import GateAccess.CourierExact
import GateAccess.HttpFetch

namespace GateAccess

variable {cfg : WireCfg}

/-- The shared buffer beside the calls: at most one is under way, and the buffer holds its body. -/
structure SyncSide (buffer : BodyBuffer syncBodyMax) (atMs : SyncCaller → Option UInt32)
    (calls : SyncCaller → Option SyncCall) : Prop where
  same : ∀ who, atMs who = (calls who).map Prod.fst
  body : ∀ who begun got, calls who = some (begun, got) →
    buffer.Collects got ∧ calls who.other = none

structure TgSide (cfg : WireCfg) (buffer : BodyBuffer tgBodyMax) (phase : TgPhase Nat)
    (whole : TgPhase (Nat × List UInt8)) : Prop where
  same : phase = whole.map Prod.fst
  body : ∀ offset got, whole = .asking (offset, got) → buffer.Collects got
  on : whole.isIdle = false → cfg.device.courierOn = true

theorem SyncSide.quiet (buffer : BodyBuffer syncBodyMax) :
    SyncSide buffer (fun _ => none) (fun _ => none) :=
  ⟨fun _ => rfl, fun _ _ _ h => by simp at h⟩

theorem TgSide.idle (cfg : WireCfg) (buffer : BodyBuffer tgBodyMax) :
    TgSide cfg buffer .idle .idle :=
  ⟨rfl, fun _ _ h => by simp at h, fun h => by simp [TgPhase.isIdle] at h⟩

@[simp] theorem SyncCaller.other_ne (who : SyncCaller) : who.other ≠ who := by
  cases who <;> simp [SyncCaller.other]

@[simp] theorem SyncCaller.other_other (who : SyncCaller) : who.other.other = who := by
  cases who <;> rfl

section Sync

variable {buffer : BodyBuffer syncBodyMax} {atMs : SyncCaller → Option UInt32}
  {calls : SyncCaller → Option SyncCall}

/-- A call whose body the buffer holds, while the other caller is in none. -/
theorem SyncSide.update (h : SyncSide buffer atMs calls) {who : SyncCaller}
    (hother : calls who.other = none) (buffer' : BodyBuffer syncBodyMax) (begun : UInt32)
    {got : List UInt8} (hgot : buffer'.Collects got) :
    SyncSide buffer' (Function.update atMs who (some begun))
      (Function.update calls who (some (begun, got))) := by
  refine ⟨fun who' => ?_, fun who' begun' got' h' => ?_⟩
  · rcases who.eq_or_other who' with rfl | rfl
    · simp
    · simp [h.same]
  · rcases who.eq_or_other who' with rfl | rfl
    · rw [Function.update_self] at h'
      cases h'
      exact ⟨hgot, by simpa using hother⟩
    · rw [Function.update_of_ne (by simp), hother] at h'
      cases h'

theorem SyncSide.ends (h : SyncSide buffer atMs calls) {who : SyncCaller}
    (hother : calls who.other = none) (buffer' : BodyBuffer syncBodyMax) :
    SyncSide buffer' (Function.update atMs who none) (Function.update calls who none) := by
  have hnone : Function.update calls who none = fun _ => none := by
    funext who'
    rcases who.eq_or_other who' with rfl | rfl
    · simp
    · simp [hother]
  have hnone' : Function.update atMs who none = fun _ => none := by
    funext who'
    rcases who.eq_or_other who' with rfl | rfl
    · simp
    · simp [h.same, hother]
  rw [hnone, hnone']
  exact .quiet buffer'

end Sync

/-- The device with its buffers beside the one whose requests keep their own bodies. -/
structure Transports (cfg : WireCfg) (w : WireDevice) (d : WholeDevice) : Prop where
  device : w.device = d.device
  sync : SyncSide w.syncBody w.syncCalls d.syncCalls
  tg : TgSide cfg w.tgBody w.tgPhase d.tgPhase

/-- Whether the event leaves a sync under way alone: the other caller does not begin one. -/
def apart (cfg : WireCfg) (p : WireDevice × WireEvent) : Bool :=
  match p.2 with
  | .syncBegins who online atMs =>
    !syncAsks cfg p.1.device (p.1.syncCalls who) who online atMs || (p.1.syncCalls who.other).isNone
  | _ => true

theorem Transports.syncBegins {w : WireDevice} {d : WholeDevice} (h : Transports cfg w d)
    (who : SyncCaller) (online : Bool) (atMs : UInt32)
    (hapart : apart cfg (w, .syncBegins who online atMs) = true) :
    Transports cfg (wireStep cfg w (.syncBegins who online atMs))
      (wholeStep cfg d (.syncBegins who online atMs)) := by
  have hasks : syncAsks cfg w.device (w.syncCalls who) who online atMs =
      syncAsks cfg d.device (d.syncCalls who) who online atMs := by
    simp only [syncAsks, h.sync.same, h.device, Option.isNone_map]
  simp only [wireStep, wholeStep, hasks]
  split
  next hbegins =>
    have hother : d.syncCalls who.other = none := by
      simp only [apart, hasks, hbegins, Bool.not_true, Bool.false_or, Option.isNone_iff_eq_none]
        at hapart
      rwa [h.sync.same, Option.map_eq_none_iff] at hapart
    exact ⟨h.device, h.sync.update hother _ atMs (.start rfl), h.tg⟩
  next => exact h

theorem Transports.syncData {w : WireDevice} {d : WholeDevice} (h : Transports cfg w d)
    (who : SyncCaller) (data : List UInt8) :
    Transports cfg (wireStep cfg w (.syncData who data)) (wholeStep cfg d (.syncData who data)) := by
  have hcall := h.sync.same who
  cases hwhole : d.syncCalls who with
  | none =>
    rw [hwhole, Option.map_none] at hcall
    simpa only [wireStep, wholeStep, hcall, hwhole] using h
  | some call =>
    obtain ⟨atMs, got⟩ := call
    rw [hwhole, Option.map_some] at hcall
    simp only [wireStep, wholeStep, hcall, hwhole]
    obtain ⟨hgot, hother⟩ := h.sync.body who atMs got hwhole
    have hside := h.sync.update hother (w.syncBody.onData data) atMs (hgot.onData data)
    rw [← hcall, Function.update_eq_self] at hside
    exact ⟨h.device, hside, h.tg⟩

theorem Transports.syncEnds {w : WireDevice} {d : WholeDevice} (h : Transports cfg w d)
    (who : SyncCaller) (x : HttpOutcome) :
    Transports cfg (wireStep cfg w (.syncEnds who x)) (wholeStep cfg d (.syncEnds who x)) := by
  have hcall := h.sync.same who
  cases hwhole : d.syncCalls who with
  | none =>
    rw [hwhole, Option.map_none] at hcall
    simpa only [wireStep, wholeStep, hcall, hwhole] using h
  | some call =>
    obtain ⟨atMs, got⟩ := call
    rw [hwhole, Option.map_some] at hcall
    simp only [wireStep, wholeStep, hcall, hwhole]
    obtain ⟨hgot, hother⟩ := h.sync.body who atMs got hwhole
    refine ⟨?_, h.sync.ends hother _, h.tg⟩
    rw [syncFetchEnd_body hgot, h.device]
    rfl

/-- Where the courier's task is, on both sides. -/
theorem TgSide.cases {buffer : BodyBuffer tgBodyMax} {phase : TgPhase Nat}
    {whole : TgPhase (Nat × List UInt8)} (h : TgSide cfg buffer phase whole) :
    (phase = .idle ∧ whole = .idle) ∨
      cfg.device.courierOn = true ∧
        ((∃ offset got, phase = .asking offset ∧ whole = .asking (offset, got) ∧
          buffer.Collects got) ∨
        ∃ left, phase = .handling left ∧ whole = .handling left) := by
  cases whole with
  | idle => exact .inl ⟨h.same, rfl⟩
  | asking request => exact .inr ⟨h.on rfl, .inl ⟨_, _, h.same, rfl, h.body _ _ rfl⟩⟩
  | handling left => exact .inr ⟨h.on rfl, .inr ⟨left, h.same, rfl⟩⟩

theorem Transports.tgBegins {w : WireDevice} {d : WholeDevice} (h : Transports cfg w d)
    (online : Bool) (atMs : UInt32) :
    Transports cfg (wireStep cfg w (.tgBegins online atMs))
      (wholeStep cfg d (.tgBegins online atMs)) := by
  have hasks : courierAsks cfg w.device w.tgPhase online atMs =
      courierAsks cfg d.device d.tgPhase online atMs := by
    rw [courierAsks, courierAsks, h.tg.same, h.device]
    cases d.tgPhase <;> rfl
  simp only [wireStep, wholeStep, hasks]
  split
  next hbegins =>
    simp only [courierAsks, Bool.and_eq_true] at hbegins
    refine ⟨h.device, h.sync, by rw [h.device]; rfl, fun offset got hphase => ?_,
      fun _ => hbegins.1.1.2⟩
    cases hphase
    exact .start rfl
  next => exact h

theorem Transports.tgData {w : WireDevice} {d : WholeDevice} (h : Transports cfg w d)
    (data : List UInt8) :
    Transports cfg (wireStep cfg w (.tgData data)) (wholeStep cfg d (.tgData data)) := by
  obtain ⟨hw, hd⟩ | ⟨hon, ⟨offset, got, hw, hd, hgot⟩ | ⟨left, hw, hd⟩⟩ := h.tg.cases
  · simpa only [wireStep, wholeStep, hw, hd] using h
  · simp only [wireStep, wholeStep, hw, hd]
    refine ⟨h.device, h.sync, rfl, fun offset' got' hphase => ?_, fun _ => hon⟩
    cases hphase
    exact hgot.onData data
  · simpa only [wireStep, wholeStep, hw, hd] using h

theorem Transports.tgEnds {w : WireDevice} {d : WholeDevice} (h : Transports cfg w d)
    (x : HttpOutcome) (doneMs : UInt32) :
    Transports cfg (wireStep cfg w (.tgEnds x doneMs)) (wholeStep cfg d (.tgEnds x doneMs)) := by
  obtain ⟨hw, hd⟩ | ⟨hon, ⟨offset, got, hw, hd, hgot⟩ | ⟨left, hw, hd⟩⟩ := h.tg.cases
  · simpa only [wireStep, wholeStep, hw, hd] using h
  · simp only [wireStep, wholeStep, hw, hd, courierAnswer_whole hgot]
    cases x.response cfg offset got with
    | updates us => exact ⟨h.device, h.sync, rfl, fun _ _ hphase => (by simp at hphase), fun _ => hon⟩
    | badToken | failed =>
      refine ⟨?_, h.sync, .idle cfg _⟩
      simp [deviceStep, hon, h.device]
  · simpa only [wireStep, wholeStep, hw, hd] using h

theorem Transports.tgNext {w : WireDevice} {d : WholeDevice} (h : Transports cfg w d)
    (nowMs : UInt32) :
    Transports cfg (wireStep cfg w (.tgNext nowMs)) (wholeStep cfg d (.tgNext nowMs)) := by
  obtain ⟨hw, hd⟩ | ⟨hon, ⟨offset, got, hw, hd, hgot⟩ | ⟨left, hw, hd⟩⟩ := h.tg.cases
  · simpa only [wireStep, wholeStep, hw, hd] using h
  · simpa only [wireStep, wholeStep, hw, hd] using h
  · simp only [wireStep, wholeStep, hw, hd]
    cases left with
    | nil =>
      refine ⟨?_, h.sync, .idle cfg _⟩
      simp [deviceStep, hon, h.device]
    | cons u left =>
      refine ⟨?_, h.sync, rfl, fun _ _ hphase => (by simp at hphase), fun _ => hon⟩
      simp [deviceStep, hon, h.device]

theorem Transports.step {w : WireDevice} {d : WholeDevice} (h : Transports cfg w d) (e : WireEvent)
    (hapart : apart cfg (w, e) = true) : Transports cfg (wireStep cfg w e) (wholeStep cfg d e) := by
  cases e with
  | syncBegins who online atMs => exact h.syncBegins who online atMs hapart
  | syncData who data => exact h.syncData who data
  | syncEnds who x => exact h.syncEnds who x
  | tgBegins online atMs => exact h.tgBegins online atMs
  | tgData data => exact h.tgData data
  | tgEnds x doneMs => exact h.tgEnds x doneMs
  | tgNext nowMs => exact h.tgNext nowMs
  | other e => exact ⟨by simp only [wireStep, wholeStep, h.device], h.sync, h.tg⟩
  | reboot b =>
    exact ⟨by simp only [wireStep, wholeStep, h.device], .quiet _, .idle cfg _⟩

/-- The device at rest: no request of either channel is under way. -/
structure WireDevice.AtRest (w : WireDevice) : Prop where
  sync : w.syncCalls = fun _ => none
  tg : w.tgPhase = .idle

/-- In a run in which the two callers of the sync client keep apart the transport is invisible: the
device does what it would do if every request brought its body whole. -/
theorem transport_invisible (cfg : WireCfg) (w : WireDevice) (events : List WireEvent)
    (hrest : w.AtRest) (hapart : ∀ p ∈ trace (wireStep cfg) w events, apart cfg p = true) :
    (exec (wireStep cfg) w events).device =
      (exec (wholeStep cfg) ⟨w.device, fun _ => none, .idle⟩ events).device := by
  have hrun : ∀ w d, Transports cfg w d →
      (∀ p ∈ trace (wireStep cfg) w events, apart cfg p = true) →
      Transports cfg (exec (wireStep cfg) w events) (exec (wholeStep cfg) d events) := by
    clear hapart
    induction events with
    | nil => exact fun w d h _ => h
    | cons e events ih =>
      intro w d h hapart
      refine ih _ _ (h.step e (hapart _ List.mem_cons_self)) fun p hp => ?_
      exact hapart p (List.mem_cons_of_mem _ hp)
  refine (hrun w _ ⟨rfl, ?_, ?_⟩ hapart).device
  · rw [hrest.sync]
    exact .quiet _
  · rw [hrest.tg]
    exact .idle cfg _

/-- A device on the bench whose server answers every request with one update. -/
def benchWire : WireCfg := ⟨plainCfg, ascii "123456:revoked", fun _ => some [pushedAdd]⟩

def benchStart : WireDevice where
  device := powerUp plainCfg blankStored coldBoot
  syncBody := ⟨zeros _, 0⟩
  syncCalls := fun _ => none
  tgBody := ⟨zeros _, 0⟩
  tgPhase := .idle

def answered : HttpOutcome := ⟨true, true, 200⟩

/-- A poll and a request of the courier at once, each body in pieces, and a `sync now` after both. -/
def benchEvents : List WireEvent :=
  [.syncBegins .syncTask true 0, .tgBegins true 0, .syncData .syncTask (emptyBody.take 20),
    .tgData (ascii "\x7b\"ok\":"), .syncData .syncTask (emptyBody.drop 20), .tgData (ascii "true\x7d"),
    .syncEnds .syncTask answered, .tgEnds answered 50000, .tgNext 50000, .tgNext 50010,
    .syncBegins .console false 60000, .syncEnds .console ⟨true, false, 0⟩]

theorem transport_invisible_bench :
    (exec (wireStep benchWire) benchStart benchEvents).device =
      (exec (wholeStep benchWire) ⟨benchStart.device, fun _ => none, .idle⟩ benchEvents).device ∧
    (exec (wireStep benchWire) benchStart benchEvents).device.sync.generation = 5 ∧
    (exec (wireStep benchWire) benchStart benchEvents).device.tg.counter = 1 :=
  ⟨transport_invisible benchWire benchStart benchEvents ⟨rfl, rfl⟩ (by decide +kernel),
    by decide +kernel, by decide +kernel⟩

/-- A `sync now` typed during a poll: the poll's body is lost to the other's and the set refused. -/
example : let events : List WireEvent :=
      [.syncBegins .syncTask true 0, .syncData .syncTask (emptyBody.take 20),
        .syncBegins .console false 100, .syncData .syncTask (emptyBody.drop 20),
        .syncEnds .syncTask answered]
    (exec (wireStep benchWire) benchStart events).device.sync.generation = 0 ∧
    (exec (wholeStep benchWire) ⟨benchStart.device, fun _ => none, .idle⟩ events).device.sync.generation
      = 5 := by
  decide +kernel

end GateAccess
