import GateAccess.WireDevice

namespace GateAccess

variable {cfg : WireCfg}

theorem handleUpdate_fatal (mac : HexMac) (st : TgState) (table : AcCtx) (u : TgUpdate) :
    (handleUpdate mac st table u).1.poll.fatal = st.poll.fatal := by
  have hconsume : ∀ id, (tgPollConsume st.poll id).1.fatal = st.poll.fatal := fun id => by
    unfold tgPollConsume
    split <;> rfl
  unfold handleUpdate
  cases u.updateId with
  | none => rfl
  | some id =>
    dsimp only
    split <;> exact hconsume id

theorem le_handleUpdate_offset (mac : HexMac) (st : TgState) (table : AcCtx) (u : TgUpdate) :
    st.poll.offset ≤ (handleUpdate mac st table u).1.poll.offset ∧
      ∀ id, u.updateId = some id → id ≤ (handleUpdate mac st table u).1.poll.offset := by
  rw [handleUpdate_offset]
  cases u.updateId with
  | none => exact ⟨Nat.le_refl _, fun id h => by cases h⟩
  | some id =>
    refine ⟨Nat.le_max_left _ _, fun id' h => ?_⟩
    cases h
    exact Nat.le_max_right _ _

theorem courierTail_offset (st : TgState) (resp : TgResponse) (nowMs : UInt32) :
    (courierTail st resp nowMs).poll.offset = st.poll.offset := by
  unfold courierTail
  cases resp with
  | badToken => rfl
  | failed => rfl
  | updates us =>
    dsimp only
    split_ifs
    · simp only [tgPollOk, tgPollPersisted]
    · simp only [tgPollOk]

theorem courierTail_fatal {st : TgState} (h : st.poll.fatal = true) (resp : TgResponse)
    (nowMs : UInt32) : (courierTail st resp nowMs).poll.fatal = true := by
  unfold courierTail
  cases resp with
  | badToken => rfl
  | failed => exact h
  | updates us =>
    dsimp only
    split_ifs
    · simpa only [tgPollOk, tgPollPersisted] using h
    · simpa only [tgPollOk] using h

theorem deviceStep_local_tg (cfg : DeviceCfg) (d : Device) {e : DeviceEvent}
    (h : e.isLocal = true) : (deviceStep cfg d e).tg = d.tg := by
  cases e with
  | poll | update | courier | reboot => simp [DeviceEvent.isLocal] at h
  | console | portalClosed | clockTrusted | attempt | tick => rfl

/-- What a step does to the courier: nothing, the end of a poll, or one update. -/
inductive TgMove (cfg : WireCfg) (w w' : WireDevice) : Prop
  | stays : w'.device.tg = w.device.tg → w'.tgPhase = w.tgPhase → TgMove cfg w w'
  | asks (offset : Nat) : w'.device.tg = w.device.tg → w.tgPhase = .idle →
      w'.tgPhase = .asking offset → TgMove cfg w w'
  | answered (offset : Nat) (us : List TgUpdate) : w'.device.tg = w.device.tg →
      w.tgPhase = .asking offset → w'.tgPhase = .handling us → TgMove cfg w w'
  | handles (u : TgUpdate) (left : List TgUpdate) :
      w'.device.tg = (handleUpdate cfg.device.sync.mac w.device.tg w.device.access u).1 →
      w.tgPhase = .handling (u :: left) → w'.tgPhase = .handling left → TgMove cfg w w'
  | closes (resp : TgResponse) (nowMs : UInt32) :
      w'.device.tg = courierTail w.device.tg resp nowMs →
      (w.tgPhase = .handling [] ∨ ∃ offset, w.tgPhase = .asking offset) →
      w'.tgPhase = .idle → TgMove cfg w w'

theorem wireStep_tg (w : WireDevice) {e : WireEvent} (hboot : ∀ b, e ≠ .reboot b) :
    TgMove cfg w (wireStep cfg w e) := by
  cases e with
  | syncBegins who online atMs =>
    simp only [wireStep]
    split <;> exact .stays rfl rfl
  | syncData who data =>
    simp only [wireStep]
    split <;> exact .stays rfl rfl
  | syncEnds who x =>
    simp only [wireStep]
    split <;> exact .stays rfl rfl
  | tgBegins online atMs =>
    simp only [wireStep]
    split
    next hasks =>
      have hidle : w.tgPhase = .idle := by
        simp only [courierAsks, Bool.and_eq_true] at hasks
        revert hasks
        cases w.tgPhase <;> simp [TgPhase.isIdle]
      exact .asks _ rfl hidle rfl
    next => exact .stays rfl rfl
  | tgData data =>
    simp only [wireStep]
    split
    next hphase => exact .stays rfl rfl
    next => exact .stays rfl rfl
  | tgEnds x doneMs =>
    simp only [wireStep]
    split
    next offset hphase =>
      cases courierAnswer cfg w offset x with
      | updates us => exact .answered offset us rfl hphase rfl
      | badToken => exact .closes .badToken doneMs rfl (.inr ⟨offset, hphase⟩) rfl
      | failed => exact .closes .failed doneMs rfl (.inr ⟨offset, hphase⟩) rfl
    next => exact .stays rfl rfl
  | tgNext nowMs =>
    simp only [wireStep]
    split
    next u left hphase => exact .handles u left rfl hphase rfl
    next hphase => exact .closes (.updates []) nowMs rfl (.inl hphase) rfl
    next => exact .stays rfl rfl
  | other e => exact .stays (deviceStep_local_tg _ _ e.property) rfl
  | reboot b => exact absurd rfl (hboot b)

/-- Short of a boot, a courier that is off stays off and one that has seen an update keeps it. -/
theorem TgMove.courier {w w' : WireDevice} (h : TgMove cfg w w') :
    (w.device.tg.poll.fatal = true → w'.device.tg.poll.fatal = true) ∧
      w.device.tg.poll.offset ≤ w'.device.tg.poll.offset := by
  cases h with
  | stays htg | asks _ htg | answered _ _ htg => rw [htg]; exact ⟨id, Nat.le_refl _⟩
  | handles u left htg =>
    rw [htg]
    exact ⟨fun hf => by rw [handleUpdate_fatal]; exact hf, (le_handleUpdate_offset ..).1⟩
  | closes resp nowMs htg =>
    rw [htg]
    exact ⟨fun hf => courierTail_fatal hf resp nowMs, (courierTail_offset ..).ge⟩

/-- No boot in between. -/
def NoBoot (events : List WireEvent) : Prop := ∀ b, .reboot b ∉ events

theorem NoBoot.cons {e : WireEvent} {events : List WireEvent} (h : NoBoot (e :: events)) :
    (∀ b, e ≠ .reboot b) ∧ NoBoot events :=
  ⟨fun b he => h b (he ▸ List.mem_cons_self), fun b hb => h b (List.mem_cons_of_mem _ hb)⟩

theorem wire_courier (cfg : WireCfg) (w : WireDevice) {events : List WireEvent}
    (h : NoBoot events) :
    (w.device.tg.poll.fatal = true →
      (exec (wireStep cfg) w events).device.tg.poll.fatal = true) ∧
    w.device.tg.poll.offset ≤ (exec (wireStep cfg) w events).device.tg.poll.offset := by
  induction events generalizing w with
  | nil => exact ⟨id, Nat.le_refl _⟩
  | cons e events ih =>
    obtain ⟨hboot, hrest⟩ := h.cons
    have hmove : TgMove cfg w (wireStep cfg w e) := wireStep_tg w hboot
    obtain ⟨hfatal, hoffset⟩ := hmove.courier
    obtain ⟨hfatal', hoffset'⟩ := ih (wireStep cfg w e) hrest
    exact ⟨fun hw => hfatal' (hfatal hw), Nat.le_trans hoffset hoffset'⟩

/-- These updates are behind the courier, or in the loop it has not left. -/
def Taken (ids : List Nat) (w : WireDevice) : Prop :=
  ∀ id ∈ ids, id ≤ w.device.tg.poll.offset ∨
    ∃ left, w.tgPhase = .handling left ∧ id ∈ updateIds left

theorem Taken.move {ids : List Nat} {w w' : WireDevice} (h : Taken ids w) (hmove : TgMove cfg w w') :
    Taken ids w' := by
  intro id hid
  obtain ⟨-, hle⟩ := hmove.courier
  rcases h id hid with hbehind | ⟨left, hphase, hleft⟩
  · exact .inl (Nat.le_trans hbehind hle)
  cases hmove with
  | stays htg hsame => exact .inr ⟨left, hsame.trans hphase, hleft⟩
  | asks offset htg hidle => rw [hidle] at hphase; cases hphase
  | answered offset us htg hasking => rw [hasking] at hphase; cases hphase
  | handles u rest htg hhandling hrest =>
    rw [hhandling] at hphase
    cases hphase
    cases hu : u.updateId with
    | none =>
      have hskip : updateIds (u :: rest) = updateIds rest := by simp [updateIds, hu]
      exact .inr ⟨rest, hrest, hskip ▸ hleft⟩
    | some id' =>
      have hcons : updateIds (u :: rest) = id' :: updateIds rest := by simp [updateIds, hu]
      rw [hcons] at hleft
      rcases List.mem_cons.mp hleft with rfl | hmem
      · rw [htg]
        exact .inl ((le_handleUpdate_offset ..).2 _ hu)
      · exact .inr ⟨rest, hrest, hmem⟩
  | closes resp nowMs htg hwas =>
    rcases hwas with hempty | ⟨offset, hasking⟩
    · rw [hempty] at hphase
      cases hphase
      simp [updateIds] at hleft
    · rw [hasking] at hphase
      cases hphase

theorem Taken.run {ids : List Nat} {w : WireDevice} (h : Taken ids w) {events : List WireEvent}
    (hboot : NoBoot events) : Taken ids (exec (wireStep cfg) w events) := by
  induction events generalizing w with
  | nil => exact h
  | cons e events ih =>
    obtain ⟨he, hrest⟩ := hboot.cons
    exact ih (h.move (wireStep_tg w he)) hrest

/-- A request stays under way, asking for what it asked, until it comes back. -/
theorem asking_run {w : WireDevice} {offset : Nat} {events : List WireEvent}
    (hphase : w.tgPhase = .asking offset) (hboot : NoBoot events)
    (hends : ∀ x doneMs, .tgEnds x doneMs ∉ events) :
    (exec (wireStep cfg) w events).tgPhase = .asking offset := by
  induction events generalizing w with
  | nil => exact hphase
  | cons e events ih =>
    obtain ⟨he, hrest⟩ := hboot.cons
    refine ih ?_ hrest fun x doneMs hx => hends x doneMs (List.mem_cons_of_mem _ hx)
    cases e with
    | syncBegins | syncData | syncEnds =>
      simp only [wireStep]
      split <;> exact hphase
    | tgBegins => simp [wireStep, courierAsks, hphase, TgPhase.isIdle]
    | tgData | tgNext => simp [wireStep, hphase]
    | tgEnds x doneMs => exact absurd List.mem_cons_self (hends x doneMs)
    | other e => exact hphase
    | reboot b => exact absurd rfl (he b)

theorem tgPollNextOffset_mono {a b : TgPollCtx} (h : a.offset ≤ b.offset)
    (hroom : b.offset < 2 ^ 64 - 1) : tgPollNextOffset a ≤ tgPollNextOffset b := by
  unfold tgPollNextOffset
  split <;> split <;> omega

theorem lt_tgPollNextOffset {ctx : TgPollCtx} {id : Nat} (hpos : 0 < id) (hid : id ≤ ctx.offset)
    (hroom : ctx.offset < 2 ^ 64 - 1) : id < tgPollNextOffset ctx := by
  unfold tgPollNextOffset
  split <;> omega

/-- A request from its first byte on, short of a boot. Once the server has refused it for its token the
courier makes no other; once it has brought updates no later one asks for any of these again, update 0
apart and as long as the offset held is not the last there is; and no later one asks from further back. -/
theorem courier_requests (cfg : WireCfg) (w : WireDevice) (online : Bool) (atMs : UInt32)
    (during : List WireEvent) (x : HttpOutcome) (doneMs : UInt32) (since : List WireEvent)
    (hasks : courierAsks cfg w.device w.tgPhase online atMs = true) (hduring : NoBoot during)
    (hends : ∀ x doneMs, .tgEnds x doneMs ∉ during) (hsince : NoBoot since) :
    let asked := exec (wireStep cfg) w (.tgBegins online atMs :: during)
    let later := exec (wireStep cfg) asked (.tgEnds x doneMs :: since)
    let answer := courierAnswer cfg asked (tgPollNextOffset w.device.tg.poll) x
    (answer = .badToken →
      ∀ online atMs, courierAsks cfg later.device later.tgPhase online atMs = false) ∧
    (later.device.tg.poll.offset < 2 ^ 64 - 1 →
      (∀ us, answer = .updates us → ∀ online atMs,
        courierAsks cfg later.device later.tgPhase online atMs = true →
        ∀ id ∈ updateIds us, 0 < id → id < tgPollNextOffset later.device.tg.poll) ∧
      tgPollNextOffset w.device.tg.poll ≤ tgPollNextOffset later.device.tg.poll) := by
  intro asked later answer
  have hphase : asked.tgPhase = .asking (tgPollNextOffset w.device.tg.poll) := by
    have hbegins : (wireStep cfg w (.tgBegins online atMs)).tgPhase =
        .asking (tgPollNextOffset w.device.tg.poll) := by
      simp only [wireStep, if_pos hasks]
    exact asking_run (w := wireStep cfg w (.tgBegins online atMs)) hbegins hduring hends
  have hlater : later = exec (wireStep cfg) (wireStep cfg asked (.tgEnds x doneMs)) since := rfl
  have hbegun : NoBoot (.tgBegins online atMs :: during ++ .tgEnds x doneMs :: since) := by
    intro b hb
    simp only [List.cons_append, List.mem_cons, List.mem_append, reduceCtorEq, false_or] at hb
    exact hb.elim (hduring b) (hsince b)
  have hback : w.device.tg.poll.offset ≤ later.device.tg.poll.offset := by
    have hrun := (wire_courier cfg w hbegun).2
    rwa [exec_append] at hrun
  refine ⟨fun hbad online atMs => ?_, fun hroom => ⟨fun us hus online atMs hagain id hid hpos => ?_,
    tgPollNextOffset_mono hback hroom⟩⟩
  · have hoff : (wireStep cfg asked (.tgEnds x doneMs)).device.tg.poll.fatal = true := by
      have hanswer : courierAnswer cfg asked (tgPollNextOffset w.device.tg.poll) x = .badToken := hbad
      simp [wireStep, hphase, hanswer, courierTail, tgPollFatal]
    simp [courierAsks, hlater, (wire_courier cfg _ hsince).1 hoff]
  · have hanswer : courierAnswer cfg asked (tgPollNextOffset w.device.tg.poll) x = .updates us := hus
    have htaken : Taken (updateIds us) (wireStep cfg asked (.tgEnds x doneMs)) := by
      intro id hid
      exact .inr ⟨us, by simp [wireStep, hphase, hanswer], hid⟩
    have hidle : later.tgPhase.isIdle = true := by
      simp only [courierAsks, Bool.and_eq_true] at hagain
      exact hagain.1.1.1
    have hrun : Taken (updateIds us) later := htaken.run hsince
    rcases hrun id hid with hbehind | ⟨left, hhandling, -⟩
    · exact lt_tgPollNextOffset hpos hbehind hroom
    · rw [hhandling] at hidle
      simp [TgPhase.isIdle] at hidle

/-- The pieces of a response under way. -/
def benchPieces : List WireEvent := [.tgData (ascii "\x7b\"ok\":"), .tgData (ascii "true\x7d")]

theorem courier_requests_bench :
    (∀ online atMs,
      let later := exec (wireStep benchWire) benchStart (.tgBegins true 0 :: benchPieces ++
        [.tgEnds ⟨true, true, 401⟩ 50000, .tgBegins true 90000])
      courierAsks benchWire later.device later.tgPhase online atMs = false) ∧
    let later := exec (wireStep benchWire) benchStart (.tgBegins true 0 :: benchPieces ++
      [.tgEnds answered 50000, .tgNext 50000, .tgNext 50010])
    1 < tgPollNextOffset later.device.tg.poll := by
  have hasks : courierAsks benchWire benchStart.device benchStart.tgPhase true 0 = true := by
    decide +kernel
  have hends : ∀ x doneMs, WireEvent.tgEnds x doneMs ∉ benchPieces := by simp [benchPieces]
  constructor
  · exact (courier_requests benchWire benchStart true 0 benchPieces ⟨true, true, 401⟩ 50000
      [.tgBegins true 90000] hasks (by simp [NoBoot, benchPieces]) hends (by simp [NoBoot])).1 rfl
  · have hlater := (courier_requests benchWire benchStart true 0 benchPieces answered 50000
      [.tgNext 50000, .tgNext 50010] hasks (by simp [NoBoot, benchPieces]) hends
      (by simp [NoBoot])).2 (by decide +kernel)
    refine hlater.1 [pushedAdd] ?_ true 60000 (by decide +kernel) 1 (by decide +kernel) (by decide)
    have hbody : (fetchUpdatesEnd benchWire.botToken (tgPollNextOffset benchStart.device.tg.poll)
        (exec (wireStep benchWire) benchStart (.tgBegins true 0 :: benchPieces)).tgBody answered).2 =
          (200, some (ascii "\x7b\"ok\":true\x7d")) := by decide +kernel
    rw [courierAnswer, hbody]
    rfl

end GateAccess
