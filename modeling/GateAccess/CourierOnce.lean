import GateAccess.Device
import GateAccess.Climbs

namespace GateAccess

variable (cfg : DeviceCfg)

def appliedMsg (d : Device) : DeviceEvent → List (List UInt8 × TgMsg)
  | .update u =>
    if cfg.courierOn then
      match taken cfg.sync.mac d.tg u, updateText u with
      | some m, some text => [(text, m)]
      | _, _ => []
    else []
  | _ => []

def appliedLog (s : Stored) (b : BootInputs) (es : List DeviceEvent) : List (List UInt8 × TgMsg) :=
  logOf (deviceStep cfg) (appliedMsg cfg) (powerUp cfg s b) es

variable {cfg}

/-- NVS holds the counter the courier does, once it runs. -/
def CounterStored (cfg : DeviceCfg) (d : Device) : Prop :=
  cfg.courierOn = true → d.tg.nvsCounter = d.tg.counter

inductive CounterStep (cfg : DeviceCfg) (d : Device) : Device → List (List UInt8 × TgMsg) → Prop
  | kept (d') : d'.tg.nvsCounter = d.tg.nvsCounter →
      (CounterStored cfg d → CounterStored cfg d') → CounterStep cfg d d' []
  | applied (d' text m) : cfg.courierOn = true → tgParse text d.tg.counter cfg.sync.mac = (.ok, m) →
      d'.tg.nvsCounter = m.counter → d'.tg.counter = m.counter →
      CounterStep cfg d d' [(text, m)]

theorem deviceStep_counter (cfg : DeviceCfg) (d : Device) (e : DeviceEvent) :
    CounterStep cfg d (deviceStep cfg d e) (appliedMsg cfg d e) := by
  cases e with
  | update u =>
    cases hc : cfg.courierOn with
    | false =>
      simp only [deviceStep, appliedMsg, hc, Bool.false_eq_true, if_false]
      exact .kept _ rfl id
    | true =>
      simp only [deviceStep, appliedMsg, hc, if_true]
      rcases handleUpdate_step cfg.sync.mac d.tg d.access u with
        ⟨hnone, _, hcount, hnvs⟩ | ⟨m, hm, _, hcount, hnvs⟩
      · rw [hnone]
        exact .kept _ hnvs fun h hon => hnvs.trans ((h hon).trans hcount.symm)
      · obtain ⟨text, htext, hparse⟩ := taken_parse hm
        rw [hm, htext]
        exact .applied _ text m hc hparse hnvs hcount
  | courier resp nowMs =>
    simp only [deviceStep, appliedMsg]
    split
    next =>
      obtain ⟨hcount, hnvs⟩ := courierTail_counter d.tg resp nowMs
      exact .kept _ hnvs fun h hon => hnvs.trans ((h hon).trans hcount.symm)
    next => exact .kept _ rfl id
  | poll | console | portalClosed | clockTrusted | attempt | tick => exact .kept _ rfl id
  | reboot b =>
    refine .kept _ ?_ fun _ hon => ?_
    · simp only [deviceStep, powerUp, bootCourier, Device.stored]
      split <;> rfl
    · simp [deviceStep, powerUp, bootCourier, hon, tgClientInit]

theorem counterStored_step {d : Device} (h : CounterStored cfg d) (e : DeviceEvent) :
    CounterStored cfg (deviceStep cfg d e) := by
  have hs := deviceStep_counter cfg d e
  generalize deviceStep cfg d e = d' at hs ⊢
  generalize appliedMsg cfg d e = msgs at hs
  cases hs with
  | kept _ hkeep => exact hkeep h
  | applied text m _ _ hn hc => exact fun _ => hn.trans hc.symm

theorem counterStored_powerUp (cfg : DeviceCfg) (s : Stored) (b : BootInputs) :
    CounterStored cfg (powerUp cfg s b) := by
  intro hon
  simp [powerUp, bootCourier, hon, tgClientInit]

theorem CounterStored.run {d : Device} (h : CounterStored cfg d) (es : List DeviceEvent) :
    CounterStored cfg (exec (deviceStep cfg) d es) :=
  exec_invariant (I := CounterStored cfg) (fun _ e hd => counterStored_step hd e) h es

theorem appliedMsg_climbs {d : Device} (h : CounterStored cfg d) (es : List DeviceEvent) :
    Climb (· < ·) d.tg.nvsCounter
      (logOf (deviceStep cfg) (fun d e => (appliedMsg cfg d e).map fun p => p.2.counter) d es)
      (exec (deviceStep cfg) d es).tg.nvsCounter := by
  apply climb_logOf fun d : Device => d.tg.nvsCounter
  intro p hp
  obtain ⟨before, after, _, hd⟩ := mem_trace hp
  have hstored : CounterStored cfg p.1 := by
    rw [hd]
    exact h.run before
  have hs := deviceStep_counter cfg p.1 p.2
  generalize deviceStep cfg p.1 p.2 = d' at hs ⊢
  generalize appliedMsg cfg p.1 p.2 = msgs at hs ⊢
  cases hs with
  | kept hn => rw [hn]; exact .stay
  | applied text m hon hparse hn =>
    rw [hn]
    refine .take ?_ .stay
    rw [hstored hon]
    exact (tgParse_ok hparse).2

/-- Each line takes effect at most once: the counters applied over a life rise, so no text is
applied twice, nothing older follows a revoke, and a refused text moves no counter. -/
theorem courier_lines_once (s : Stored) (b : BootInputs) (es : List DeviceEvent) :
    ((appliedLog cfg s b es).map fun p => p.2.counter).Pairwise (· < ·) ∧
    ((appliedLog cfg s b es).map Prod.fst).Nodup ∧
    (∀ before revoke after, appliedLog cfg s b es = before ++ revoke :: after →
      revoke.2.op = .revoke → ∀ p ∈ after, p.2.op = .add → revoke.2.counter < p.2.counter) ∧
    (∀ u, taken cfg.sync.mac (deviceRun cfg s b es).tg u = none →
      (deviceStep cfg (deviceRun cfg s b es) (.update u)).tg.counter =
          (deviceRun cfg s b es).tg.counter ∧
        (deviceStep cfg (deviceRun cfg s b es) (.update u)).tg.nvsCounter =
          (deviceRun cfg s b es).tg.nvsCounter) := by
  have hrise : ((appliedLog cfg s b es).map fun p => p.2.counter).Pairwise (· < ·) := by
    have h := (appliedMsg_climbs (counterStored_powerUp cfg s b) es).pairwise
    rw [logOf_map] at h
    exact h
  have hrise' := List.pairwise_map.mp hrise
  have hparsed : ∀ p ∈ appliedLog cfg s b es, ∃ last, tgParse p.1 last cfg.sync.mac = (.ok, p.2) := by
    intro p hp
    obtain ⟨q, _, hq⟩ := mem_logOf hp
    have hs := deviceStep_counter cfg q.1 q.2
    generalize appliedMsg cfg q.1 q.2 = msgs at hs hq
    cases hs with
    | kept => simp at hq
    | applied text m _ hparse =>
      obtain rfl := List.mem_singleton.mp hq
      exact ⟨_, hparse⟩
  refine ⟨hrise, ?_, ?_, ?_⟩
  · apply List.pairwise_map.mpr
    refine hrise'.imp_of_mem fun {p q} hp hq hlt hsame => ?_
    obtain ⟨_, hparse⟩ := hparsed p hp
    obtain ⟨_, hparse'⟩ := hparsed q hq
    rw [hsame] at hparse
    rw [tgParse_unique hparse hparse'] at hlt
    exact absurd hlt (lt_irrefl _)
  · intro before revoke after hsplit _ p hp _
    rw [hsplit] at hrise'
    exact (List.pairwise_cons.mp (List.pairwise_append.mp hrise').2.1).1 p hp
  · intro u hnone
    generalize deviceRun cfg s b es = d at hnone
    simp only [deviceStep]
    split
    next =>
      rcases handleUpdate_step cfg.sync.mac d.tg d.access u with ⟨_, _, hc, hn⟩ | ⟨m, hm, _⟩
      · exact ⟨hc, hn⟩
      · rw [hnone] at hm
        simp at hm
    next => exact ⟨rfl, rfl⟩

end GateAccess
