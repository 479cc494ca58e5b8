import GateAccess.BoundedQueue
import GateAccess.KeypadLogic
import GateAccess.Traces
import GateAccess.WrapClock

namespace GateAccess

def kpMaxEvents : Nat := 4
def queueDepth : Nat := 8

/-- One scan pass; `level r c` is what column `c` reads while row `r` is driven low. -/
def keypadScanOnce (level : Fin 4 → Fin 4 → Bool) : UInt16 :=
  (List.finRange 4).foldl (fun bitmap r =>
    (List.finRange 4).foldl (fun bitmap c =>
      if level r c then bitmap else bitmap ||| 1 <<< UInt16.ofNat (r * 4 + c)) bitmap) 0

/-- What `keypad_task` keeps between two scans. -/
structure KeypadTask where
  logic : KpLogic
  queue : BoundedQueue KpEvent

inductive KeypadOp
  | scan (level : Fin 4 → Fin 4 → Bool)
  | receive

/-- One turn of `keypad_task`. -/
def keypadScan (uptime : Nat) (k : KeypadTask) (level : Fin 4 → Fin 4 → Bool) : KeypadTask :=
  let updated := kpLogicUpdate k.logic (keypadScanOnce level) (nowMs uptime) kpMaxEvents
  ⟨updated.1, updated.2.foldl (BoundedQueue.send queueDepth) k.queue⟩

/-- The scan task, and the main loop taking one event at a time. -/
def keypadAct (uptime : Nat) (k : KeypadTask) : KeypadOp → KeypadTask
  | .scan level => keypadScan uptime k level
  | .receive => { k with queue := k.queue.receive }

def keypadInit : KeypadTask := ⟨kpLogicInit, .empty⟩

abbrev keypadRun (ops : List (Timed KeypadOp)) : AtTime KeypadTask :=
  exec (timedStep keypadAct) ⟨0, keypadInit⟩ ops

/-- Eight presses take seven debounce times at least. -/
def drainMs : Nat := (queueDepth - 1) * kpDebounceMs.toNat

/-- At every scan the queue has been empty not long ago. -/
def DrainedInTime (ops : List (Timed KeypadOp)) : Prop :=
  ∀ before level after, ops = before ++ .event (.scan level) :: after →
    ∃ first rest, before = first ++ rest ∧ (keypadRun first).state.queue.waiting = [] ∧
      (keypadRun before).uptime < (keypadRun first).uptime + drainMs

/-- The presses and long presses sent since a time, and when the last press was. -/
structure SentSince (start sent : Nat) (uptime : Nat) (k : KeypadTask) (presses longs last : Nat) :
    Prop where
  single : Single k.logic.stable
  count : k.queue.sent.length = sent + presses + longs
  apart : start + kpDebounceMs.toNat * presses ≤ last + kpDebounceMs.toNat
  past : start ≤ uptime ∧ last ≤ uptime
  candidate : presses ≠ 0 → k.logic.candidatePending = true →
    ∃ s, last ≤ s ∧ s ≤ uptime ∧ k.logic.candidateSinceMs = UInt32.ofNat s
  held : longs ≠ 0 → 0 ≤ k.logic.heldIndex → k.logic.longFired = false →
    ∃ s, start ≤ s ∧ s ≤ uptime ∧ k.logic.pressStartedMs = UInt32.ofNat s
  fewLongs : uptime < start + kpLongpressMs.toNat → longs ≤ 1

theorem CandidateStep.since {st : KpLogic} {seen c : UInt16} {t since : UInt32} {p : Bool}
    (h : CandidateStep st seen t c since p) (hp : p = true) :
    since = t ∨ (st.candidatePending = true ∧ since = st.candidateSinceMs) := by
  cases h with
  | steady => cases hp
  | started => exact .inl rfl
  | waiting _ hpending => exact .inr ⟨hpending, rfl⟩

theorem SentSince.later {start sent t presses longs last : Nat} {k : KeypadTask}
    (h : SentSince start sent t k presses longs last) (ms : Nat) :
    SentSince start sent (t + ms) k presses longs last := by
  have hpast := h.past
  refine ⟨h.single, h.count, h.apart, by omega, fun hne hp => ?_, fun hne hheld hfired => ?_,
    fun hlt => h.fewLongs (by omega)⟩
  · obtain ⟨s, hlast, hs, hsince⟩ := h.candidate hne hp
    exact ⟨s, hlast, by omega, hsince⟩
  · obtain ⟨s, hstart, hs, hsince⟩ := h.held hne hheld hfired
    exact ⟨s, hstart, by omega, hsince⟩

theorem SentSince.receive {start sent t presses longs last : Nat} {k : KeypadTask}
    (h : SentSince start sent t k presses longs last) :
    SentSince start sent t (keypadAct t k .receive) presses longs last :=
  ⟨h.single, by rw [← h.count]; exact congrArg List.length (k.queue.receive_sent), h.apart, h.past,
    h.candidate, h.held, h.fewLongs⟩

theorem sends_sent (cap : Nat) (q : BoundedQueue KpEvent) (evs : List KpEvent) :
    (evs.foldl (BoundedQueue.send cap) q).sent = q.sent ++ evs := by
  induction evs generalizing q with
  | nil => simp
  | cons ev evs ih =>
    have hsend : (q.send cap ev).sent = q.sent ++ [ev] := by
      unfold BoundedQueue.send
      split <;> rfl
    rw [List.foldl_cons, ih, hsend, List.append_assoc, List.singleton_append]

theorem SentSince.scan {start sent t presses longs last : Nat} {k : KeypadTask}
    (h : SentSince start sent t k presses longs last) (level : Fin 4 → Fin 4 → Bool) :
    ∃ presses' longs' last', SentSince start sent t (keypadScan t k level) presses' longs' last' := by
  have hstep := @kpLogicUpdate_step k.logic kpMaxEvents (by decide) h.single
    (keypadScanOnce level) (nowMs t)
  have hsent := sends_sent queueDepth k.queue
    (kpLogicUpdate k.logic (keypadScanOnce level) (nowMs t) kpMaxEvents).2
  have hcount := h.count
  have hpast := h.past
  have happart := h.apart
  have hcandidate : ∀ {c since p}, CandidateStep (kpGhost k.logic (keypadScanOnce level)).1
      (kpGhost k.logic (keypadScanOnce level)).2 (nowMs t) c since p → presses ≠ 0 → p = true →
      ∃ s, last ≤ s ∧ s ≤ t ∧ since = UInt32.ofNat s := by
    intro c since p hc hne hp
    rcases hc.since hp with rfl | ⟨hpending, rfl⟩
    · exact ⟨t, hpast.2, Nat.le_refl t, rfl⟩
    · exact h.candidate hne hpending
  unfold keypadScan
  generalize kpLogicUpdate k.logic (keypadScanOnce level) (nowMs t) kpMaxEvents = updated
    at hstep hsent ⊢
  cases hstep with
  | quiet c since p hc =>
    refine ⟨presses, longs, last, ?_⟩
    exact ⟨h.single, by rw [hsent, List.append_nil, hcount], happart, hpast, hcandidate hc, h.held,
      h.fewLongs⟩
  | long c since p hc hheld hfired hdue =>
    refine ⟨presses, longs + 1, last, ?_⟩
    refine ⟨h.single, by rw [hsent, List.length_append, hcount]; rfl, happart, hpast, hcandidate hc,
      nofun, fun hlt => ?_⟩
    -- a second long press is that of a key which went down since the start
    by_contra hmany
    obtain ⟨s, hstart, hs, hsince⟩ := h.held (by omega) hheld hfired
    have hlong : (kpGhost k.logic (keypadScanOnce level)).1.pressStartedMs = UInt32.ofNat s := hsince
    rw [hlong] at hdue
    have := elapsed_le hs hdue
    omega
  | pressed key hseen hmoved hpending hsame hlong =>
    refine ⟨presses + 1, longs, t, ?_⟩
    refine ⟨.inr ⟨key, rfl⟩, by rw [hsent, List.length_append, hcount, List.length_singleton]; omega,
      ?_, ⟨hpast.1, Nat.le_refl t⟩, nofun,
      fun _ _ _ => ⟨t, hpast.1, Nat.le_refl t, rfl⟩, h.fewLongs⟩
    rw [Nat.mul_succ]
    by_cases hnone : presses = 0
    · subst hnone
      omega
    · obtain ⟨s, hlast, hs, hsince⟩ := h.candidate hnone hpending
      have hdue : (kpGhost k.logic (keypadScanOnce level)).1.candidateSinceMs = UInt32.ofNat s := hsince
      rw [hdue] at hlong
      have := elapsed_le hs hlong
      omega
  | released hseen hmoved hpending =>
    refine ⟨presses, longs, last, ?_⟩
    exact ⟨.inl rfl, by rw [hsent, List.append_nil, hcount], happart, hpast,
      nofun, fun _ hheld => absurd hheld (by simp), h.fewLongs⟩

theorem sentSince_run {k : AtTime KeypadTask} (h : Single k.state.logic.stable)
    (ops : List (Timed KeypadOp)) :
    ∃ presses longs last, SentSince k.uptime k.state.queue.sent.length
      (exec (timedStep keypadAct) k ops).uptime (exec (timedStep keypadAct) k ops).state
      presses longs last := by
  refine timed_invariant (I := fun t state => ∃ presses longs last,
    SentSince k.uptime k.state.queue.sent.length t state presses longs last) ?_ ?_ ?_ ops
  · rintro t ms state ⟨presses, longs, last, hsince⟩
    exact ⟨presses, longs, last, hsince.later ms⟩
  · rintro t state op ⟨presses, longs, last, hsince⟩
    cases op with
    | scan level => exact hsince.scan level
    | receive => exact ⟨presses, longs, last, hsince.receive⟩
  · exact ⟨0, 0, k.uptime, h, rfl, by omega, by omega, nofun, nofun, fun _ => Nat.zero_le 1⟩

/-- What sends and takings of the queue keep, a run of the two tasks keeps. -/
theorem queue_run {I : BoundedQueue KpEvent → Prop} (hsend : ∀ q ev, I q → I (q.send queueDepth ev))
    (hreceive : ∀ q, I q → I q.receive) {k : AtTime KeypadTask} (start : I k.state.queue)
    (ops : List (Timed KeypadOp)) : I (exec (timedStep keypadAct) k ops).state.queue := by
  refine timed_invariant (I := fun _ (state : KeypadTask) => I state.queue) (fun _ _ _ h => h) ?_ start ops
  intro t state op h
  cases op with
  | scan level => exact @exec_invariant _ _ (BoundedQueue.send queueDepth) I hsend _ h _
  | receive => exact hreceive _ h

theorem keypadRun_append (first rest : List (Timed KeypadOp)) :
    keypadRun (first ++ rest) = exec (timedStep keypadAct) (keypadRun first) rest := exec_append _ _ _ _

theorem keypadRun_single (ops : List (Timed KeypadOp)) : Single (keypadRun ops).state.logic.stable := by
  obtain ⟨presses, longs, last, hsince⟩ := sentSince_run (k := ⟨0, keypadInit⟩) (.inl rfl) ops
  exact hsince.single

/-- In less than seven debounce times no more is sent than there is room for. -/
theorem sent_few {first rest : List (Timed KeypadOp)}
    (h : (keypadRun (first ++ rest)).uptime < (keypadRun first).uptime + drainMs) :
    (keypadRun (first ++ rest)).state.queue.sent.length ≤
      (keypadRun first).state.queue.sent.length + queueDepth := by
  obtain ⟨presses, longs, last, hsince⟩ := sentSince_run (keypadRun_single first) rest
  rw [← keypadRun_append] at hsince
  have hcount := hsince.count
  have happart := hsince.apart
  have hpast := hsince.past
  have hlongs := hsince.fewLongs (by
    have hspan : drainMs ≤ kpLongpressMs.toNat := by decide
    omega)
  have hdrain : drainMs = 105 := rfl
  have hdebounce : kpDebounceMs.toNat = 15 := rfl
  have hdepth : queueDepth = 8 := rfl
  rw [hdebounce] at happart
  rw [hcount, hdepth]
  omega

theorem none_refused {ops : List (Timed KeypadOp)} (h : DrainedInTime ops) :
    (keypadRun ops).state.queue.refused = [] := by
  induction ops using List.reverseRecOn with
  | nil => rfl
  | append_singleton ops op ih =>
    have hbefore := ih fun before level after hops =>
      h before level (after ++ [op]) (by rw [hops, List.append_assoc, List.cons_append])
    rcases op with ms | level | _
    · rw [keypadRun_append]
      exact hbefore
    · obtain ⟨first, rest, rfl, hempty, hsoon⟩ := h ops level [] rfl
      have hfirst : (keypadRun first).state.queue.refused = [] := by
        have hgrown := queue_run (I := fun q => (keypadRun first).state.queue.refused <+: q.refused)
          (fun q ev hq => hq.trans (q.refused_send queueDepth ev))
          (fun q hq => by rwa [q.receive_refused]) List.prefix_rfl rest
        rw [← keypadRun_append, hbefore] at hgrown
        exact List.prefix_nil.mp hgrown
      have hsince := queue_run (I := (keypadRun first).state.queue.EmptySince queueDepth)
        (fun q ev hq => hq.send ev) (fun q hq => hq.receive) (.start hempty)
        (rest ++ [.event (.scan level)])
      have hfew : (keypadRun (first ++ (rest ++ [.event (.scan level)]))).state.queue.sent.length ≤
          (keypadRun first).state.queue.sent.length + queueDepth := by
        refine sent_few ?_
        rw [← List.append_assoc, keypadRun_append]
        exact hsoon
      rw [← keypadRun_append] at hsince
      rw [List.append_assoc, hsince.refused hfew, hfirst]
    · rw [keypadRun_append]
      exact (BoundedQueue.receive_refused _).trans hbefore

/-- The main loop gets the keypad's events in the order in which they came, and when it comes around in
time it gets them all. -/
theorem keys_delivered (ops : List (Timed KeypadOp)) :
    ((keypadRun ops).state.queue.received ++ (keypadRun ops).state.queue.waiting).Sublist
        (keypadRun ops).state.queue.sent ∧
      (keypadRun ops).state.queue.waiting.length ≤ queueDepth ∧
      (keypadRun ops).state.queue.received.length + (keypadRun ops).state.queue.waiting.length +
        (keypadRun ops).state.queue.refused.length = (keypadRun ops).state.queue.sent.length ∧
      (DrainedInTime ops →
        (keypadRun ops).state.queue.received ++ (keypadRun ops).state.queue.waiting =
          (keypadRun ops).state.queue.sent) := by
  have hsound := queue_run (I := BoundedQueue.Sound queueDepth) (fun q ev h => h.send ev)
    (fun q h => h.receive) (k := ⟨0, keypadInit⟩) .empty ops
  exact ⟨hsound.inOrder, hsound.bounded, hsound.counted, fun h => hsound.whole (none_refused h)⟩

end GateAccess
