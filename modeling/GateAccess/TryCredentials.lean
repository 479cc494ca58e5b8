import GateAccess.NetLink
import GateAccess.Traces

namespace GateAccess

inductive WifiEvent
  | staDisconnected
  | gotIp
  deriving DecidableEq

/-- Whose connect an event is about: the station's own, or the one with the new credentials. -/
inductive Origin
  | previous
  | test
  deriving DecidableEq

structure Posted where
  event : WifiEvent
  origin : Origin
  deriving DecidableEq

inductive Radio
  | idle
  | connecting
  | up
  deriving DecidableEq

/-- Where `net_link_try_credentials` stands; the verdict is what `xEventGroupWaitBits` returned. -/
inductive TryPc
  | disconnect
  | clear
  | connect
  | wait
  | waiting
  | judged (gotIp staFail : Bool)
  | returned (gotIp staFail : Bool)
  deriving DecidableEq

/-- The call, the driver and the events that it has posted and nobody has handled yet. No code reads
`since`, the events handled since the bits were cleared. -/
structure TryState where
  link : NetLink
  radio : Radio
  owner : Origin
  queue : List Posted
  pc : TryPc
  hadSta : Bool
  hadJoin : Bool
  since : List Posted
  deriving DecidableEq

/-- The call as it begins, whatever the station was doing and whatever events are still queued. -/
def tryStart (link : NetLink) (radio : Radio) (pending : List WifiEvent) : TryState where
  link := { link with wantSta := true, wantJoin := true }
  radio := radio
  owner := .previous
  queue := pending.map fun event => ⟨event, .previous⟩
  pc := .disconnect
  hadSta := link.wantSta
  hadJoin := link.wantJoin
  since := []

def TryState.post (s : TryState) (event : WifiEvent) : TryState :=
  { s with queue := s.queue ++ [⟨event, s.owner⟩] }

def espWifiDisconnect (s : TryState) : TryState :=
  if s.radio = .up then { s.post .staDisconnected with radio := .idle } else { s with radio := .idle }

def espWifiConnect (s : TryState) (owner : Origin) : TryState :=
  if s.radio = .idle then { s with radio := .connecting, owner := owner } else s

/-- `xEventGroupWaitBits`: it returns once a bit is set, and clears both. -/
def waitBits (s : TryState) : TryState :=
  if s.link.gotIp || s.link.staFail then
    { s with
      link := { s.link with gotIp := false, staFail := false }
      pc := .judged s.link.gotIp s.link.staFail }
  else s

/-- The next statement of the call. The flag says whether the driver takes the configuration and the
connect. -/
def tryNext (s : TryState) (issued : Bool) : TryState :=
  match s.pc with
  | .disconnect => { espWifiDisconnect s with pc := .clear }
  | .clear =>
    { s with link := { s.link with gotIp := false, staFail := false }, pc := .connect, since := [] }
  | .connect =>
    if issued then { espWifiConnect s .test with pc := .wait } else { s with pc := .judged false false }
  | .wait => waitBits { s with pc := .waiting }
  | .waiting => s
  | .judged gotIp staFail =>
    let s := espWifiDisconnect s
    let s := { s with
      link := { s.link with wantSta := s.hadSta, wantJoin := s.hadJoin }
      pc := .returned gotIp staFail }
    if s.hadJoin then espWifiConnect s .previous else s
  | .returned _ _ => s

def handleEvent (l : NetLink) (event : WifiEvent) (nowMs : UInt32) : NetLink :=
  match event with
  | .staDisconnected => onDisconnected l nowMs
  | .gotIp => onGotIp l

/-- The event task handles the oldest event. -/
def deliver (s : TryState) (nowMs : UInt32) : TryState :=
  match s.queue with
  | [] => s
  | p :: rest =>
    let s := { s with
      link := handleEvent s.link p.event nowMs
      queue := rest
      since := s.since ++ [p] }
    if s.pc = .waiting then waitBits s else s

inductive TryMove
  | next (issued : Bool)
  | timeout
  | deliver (nowMs : UInt32)
  -- what the radio does by itself
  | associate
  | address
  | lose
  deriving DecidableEq

def tryStep (s : TryState) : TryMove → TryState
  | .next issued => tryNext s issued
  | .timeout => if s.pc = .waiting then { s with pc := .judged false false } else s
  | .deliver nowMs => deliver s nowMs
  | .associate => if s.radio = .connecting then { s with radio := .up } else s
  | .address => if s.radio = .up then s.post .gotIp else s
  | .lose => if s.radio = .idle then s else { s.post .staDisconnected with radio := .idle }

/-- An OK rests on an address that the tested connect obtained, and a failure that an event reports on
a failure of that connect. -/
def JudgedByTest (gotIp staFail : Bool) (since : List Posted) : Prop :=
  (gotIp = true → ⟨.gotIp, .test⟩ ∈ since) ∧
  (gotIp = false → staFail = true → ⟨.staDisconnected, .test⟩ ∈ since)

def RightVerdict (s : TryState) : Prop :=
  ∀ gotIp staFail, s.pc = .judged gotIp staFail ∨ s.pc = .returned gotIp staFail →
    JudgedByTest gotIp staFail s.since

/-- Before the bits are cleared everything is about the station's own connects. -/
def BeforeClear (s : TryState) : Prop :=
  s.pc = .disconnect ∨ s.pc = .clear →
    s.owner = .previous ∧ (∀ p ∈ s.queue, p.origin = .previous) ∧ (s.pc = .clear → s.radio = .idle)

/-- While the call waits, every event is about its own connect, and so is every bit. -/
structure OnlyTest (s : TryState) : Prop where
  queue : ∀ p ∈ s.queue, p.origin = .test
  radio : s.radio = .idle ∨ s.owner = .test
  address : s.link.gotIp = true → ⟨.gotIp, .test⟩ ∈ s.since
  failure : s.link.staFail = true → ⟨.staDisconnected, .test⟩ ∈ s.since

inductive OnTrack (s : TryState) : Prop
  | testing : s.pc = .connect ∨ s.pc = .wait ∨ s.pc = .waiting → OnlyTest s → OnTrack s
  | judged (gotIp staFail) : s.pc = .judged gotIp staFail ∨ s.pc = .returned gotIp staFail →
      JudgedByTest gotIp staFail s.since → OnTrack s

theorem JudgedByTest.mono {gotIp staFail : Bool} {since : List Posted} (p : Posted)
    (h : JudgedByTest gotIp staFail since) : JudgedByTest gotIp staFail (since ++ [p]) :=
  ⟨fun hip => List.mem_append_left _ (h.1 hip),
    fun hip hfail => List.mem_append_left _ (h.2 hip hfail)⟩

theorem OnTrack.right {s : TryState} (h : OnTrack s) : RightVerdict s := by
  intro gotIp staFail hpc
  cases h with
  | testing htesting _ =>
    rcases htesting with hs | hs | hs
    all_goals rw [hs] at hpc; simp at hpc
  | judged gotIp' staFail' hjudged hright =>
    rcases hjudged with hs | hs
    all_goals
      rw [hs] at hpc
      simp only [TryPc.judged.injEq, TryPc.returned.injEq, reduceCtorEq, or_false, false_or] at hpc
      obtain ⟨rfl, rfl⟩ := hpc
      exact hright

/-- What ends the wait has come from the test. -/
theorem OnlyTest.waitBits {s : TryState} (h : OnlyTest s) (hpc : s.pc = .waiting) :
    OnTrack (waitBits s) := by
  unfold GateAccess.waitBits
  split
  next => exact .judged _ _ (.inl rfl) ⟨h.address, fun _ => h.failure⟩
  next => exact .testing (.inr (.inr hpc)) h

theorem OnlyTest.moved {s t : TryState} (h : OnlyTest s) (hqueue : t.queue = s.queue)
    (hradio : t.radio = .idle ∨ t.owner = .test) (hlink : t.link = s.link)
    (hsince : t.since = s.since) : OnlyTest t :=
  ⟨by rw [hqueue]; exact h.queue, hradio, by rw [hlink, hsince]; exact h.address,
    by rw [hlink, hsince]; exact h.failure⟩

theorem OnlyTest.post {s : TryState} (h : OnlyTest s) (event : WifiEvent) (hbusy : s.radio ≠ .idle) :
    OnlyTest (s.post event) := by
  have howner : s.owner = .test := h.radio.resolve_left hbusy
  refine ⟨fun p hp => ?_, .inr howner, h.address, h.failure⟩
  rcases List.mem_append.mp hp with hp | hp
  · exact h.queue p hp
  · rw [List.mem_singleton.mp hp]
    exact howner

theorem OnlyTest.next {s : TryState} (h : OnlyTest s)
    (hpc : s.pc = .connect ∨ s.pc = .wait ∨ s.pc = .waiting) (issued : Bool) :
    OnTrack (tryNext s issued) := by
  rcases hpc with hpc | hpc | hpc
  · simp only [tryNext, hpc]
    cases issued with
    | false => exact .judged false false (.inl rfl) ⟨nofun, nofun⟩
    | true =>
      refine .testing (.inr (.inl rfl)) ?_
      simp only [espWifiConnect]
      by_cases hidle : s.radio = .idle
      · exact h.moved (by simp [hidle]) (by simp [hidle]) (by simp [hidle]) (by simp [hidle])
      · exact h.moved (by simp [hidle]) (.inr (by simpa [hidle] using h.radio)) (by simp [hidle])
          (by simp [hidle])
  · simp only [tryNext, hpc]
    exact OnlyTest.waitBits (h.moved rfl h.radio rfl rfl) rfl
  · simp only [tryNext, hpc]
    exact .testing (.inr (.inr hpc)) h

theorem OnlyTest.handled {s : TryState} {p : Posted} {rest : List Posted} (h : OnlyTest s)
    (hqueue : s.queue = p :: rest) (nowMs : UInt32) :
    OnlyTest { s with
      link := handleEvent s.link p.event nowMs, queue := rest, since := s.since ++ [p] } := by
  have hall := h.queue
  rw [hqueue, List.forall_mem_cons] at hall
  have hlast : p ∈ s.since ++ [p] := by simp
  obtain ⟨event, origin⟩ := p
  obtain rfl : origin = .test := hall.1
  cases event with
  | staDisconnected =>
    refine ⟨hall.2, h.radio, fun hip => List.mem_append_left _ (h.address ?_), fun _ => hlast⟩
    simpa [handleEvent] using hip
  | gotIp =>
    exact ⟨hall.2, h.radio, fun _ => hlast, fun hfail => List.mem_append_left _ (h.failure hfail)⟩

theorem OnlyTest.deliver {s : TryState} (h : OnlyTest s)
    (hpc : s.pc = .connect ∨ s.pc = .wait ∨ s.pc = .waiting) (nowMs : UInt32) :
    OnTrack (deliver s nowMs) := by
  unfold GateAccess.deliver
  cases hqueue : s.queue with
  | nil => exact .testing hpc h
  | cons p rest =>
    have hnext := h.handled hqueue nowMs
    dsimp only
    split
    next hwaiting => exact hnext.waitBits hwaiting
    next => exact .testing hpc hnext

theorem OnlyTest.step {s : TryState} (h : OnlyTest s)
    (hpc : s.pc = .connect ∨ s.pc = .wait ∨ s.pc = .waiting) (m : TryMove) :
    OnTrack (tryStep s m) := by
  cases m with
  | next issued => exact h.next hpc issued
  | timeout =>
    rw [tryStep]
    split
    next => exact .judged false false (.inl rfl) ⟨nofun, nofun⟩
    next => exact .testing hpc h
  | deliver nowMs => exact h.deliver hpc nowMs
  | associate =>
    rw [tryStep]
    split
    next hbusy => exact .testing hpc (h.moved rfl (.inr (h.radio.resolve_left (by simp [hbusy]))) rfl rfl)
    next => exact .testing hpc h
  | address =>
    rw [tryStep]
    split
    next hup => exact .testing hpc (h.post _ (by simp [hup]))
    next => exact .testing hpc h
  | lose =>
    rw [tryStep]
    split
    next => exact .testing hpc h
    next hbusy => exact .testing hpc ((h.post _ hbusy).moved rfl (.inl rfl) rfl rfl)

/-- A verdict stands, and the events behind it stay on record. -/
theorem judged_step {s : TryState} {gotIp staFail : Bool}
    (hpc : s.pc = .judged gotIp staFail ∨ s.pc = .returned gotIp staFail)
    (h : JudgedByTest gotIp staFail s.since) (m : TryMove) : OnTrack (tryStep s m) := by
  have hnot : s.pc ≠ .waiting := by
    rcases hpc with hpc | hpc
    all_goals rw [hpc]; nofun
  cases m with
  | next issued =>
    rcases hpc with hpc | hpc
    · refine .judged gotIp staFail (.inr ?_) ?_
      · simp only [tryStep, tryNext, hpc, espWifiConnect]
        split_ifs <;> rfl
      · simp only [tryStep, tryNext, hpc, espWifiConnect, espWifiDisconnect, TryState.post]
        split_ifs <;> exact h
    · simp only [tryStep, tryNext, hpc]
      exact .judged gotIp staFail (.inr hpc) h
  | timeout =>
    rw [tryStep, if_neg hnot]
    exact .judged gotIp staFail hpc h
  | deliver nowMs =>
    rw [tryStep, GateAccess.deliver]
    split
    next => exact .judged gotIp staFail hpc h
    next p rest _ =>
      dsimp only
      rw [if_neg hnot]
      exact .judged gotIp staFail hpc (h.mono p)
  | associate =>
    rw [tryStep]
    split <;> exact .judged gotIp staFail hpc h
  | address =>
    rw [tryStep]
    split <;> exact .judged gotIp staFail hpc h
  | lose =>
    rw [tryStep]
    split <;> exact .judged gotIp staFail hpc h

theorem OnTrack.step {s : TryState} (h : OnTrack s) (m : TryMove) :
    OnTrack (tryStep s m) := by
  cases h with
  | testing hpc honly => exact honly.step hpc m
  | judged gotIp staFail hpc hright => exact judged_step hpc hright m

theorem waitBits_pc (s : TryState) : (waitBits s).pc = s.pc ∨ ∃ gotIp staFail,
    (waitBits s).pc = .judged gotIp staFail := by
  unfold waitBits
  split
  next => exact .inr ⟨_, _, rfl⟩
  next => exact .inl rfl

/-- Only the first statement leads to the one that clears the bits, and nothing leads back. -/
theorem tryNext_pc {s : TryState} {issued : Bool}
    (h : (tryNext s issued).pc = .disconnect ∨ (tryNext s issued).pc = .clear) :
    s.pc = .disconnect := by
  cases hpc : s.pc with
  | disconnect => rfl
  | clear => simp [tryNext, hpc] at h
  | connect => cases issued <;> simp [tryNext, hpc] at h
  | wait =>
    simp only [tryNext, hpc] at h
    rcases waitBits_pc { s with pc := .waiting } with hsame | ⟨gotIp, staFail, hjudged⟩
    · rw [hsame] at h
      simp at h
    · rw [hjudged] at h
      simp at h
  | waiting => simp [tryNext, hpc] at h
  | judged gotIp staFail =>
    simp only [tryNext, hpc, espWifiConnect] at h
    split_ifs at h <;> simp at h
  | returned gotIp staFail => simp [tryNext, hpc] at h

theorem TryState.post_previous {s : TryState} (event : WifiEvent) (howner : s.owner = .previous)
    (h : ∀ p ∈ s.queue, p.origin = .previous) : ∀ p ∈ (s.post event).queue, p.origin = .previous := by
  intro p hp
  rcases List.mem_append.mp hp with hp | hp
  · exact h p hp
  · rw [List.mem_singleton.mp hp]
    exact howner

theorem beforeClear_step {s : TryState} (m : TryMove) (h : BeforeClear s) :
    BeforeClear (tryStep s m) := by
  intro hpc
  cases m with
  | next issued =>
    have hfirst := tryNext_pc hpc
    obtain ⟨howner, hqueue, -⟩ := h (.inl hfirst)
    simp only [tryStep, tryNext, hfirst, espWifiDisconnect]
    split
    next => exact ⟨howner, TryState.post_previous _ howner hqueue, fun _ => rfl⟩
    next => exact ⟨howner, hqueue, fun _ => rfl⟩
  | timeout =>
    rw [tryStep] at hpc ⊢
    split at hpc
    next => simp at hpc
    next hnot =>
      rw [if_neg hnot]
      exact h hpc
  | deliver nowMs =>
    rw [tryStep, deliver] at hpc ⊢
    cases hqueue : s.queue with
    | nil =>
      rw [hqueue] at hpc
      exact h hpc
    | cons p rest =>
      simp only [hqueue] at hpc ⊢
      by_cases hwaiting : s.pc = .waiting
      · rw [if_pos hwaiting] at hpc
        rcases waitBits_pc { s with
          link := handleEvent s.link p.event nowMs, queue := rest, since := s.since ++ [p] } with
          hsame | ⟨gotIp, staFail, hjudged⟩
        · rw [hsame, hwaiting] at hpc
          simp at hpc
        · rw [hjudged] at hpc
          simp at hpc
      · rw [if_neg hwaiting] at hpc ⊢
        obtain ⟨howner, hprevious, hidle⟩ := h hpc
        rw [hqueue, List.forall_mem_cons] at hprevious
        exact ⟨howner, hprevious.2, hidle⟩
  | associate =>
    rw [tryStep] at hpc ⊢
    split at hpc
    next hbusy =>
      obtain ⟨howner, hprevious, hidle⟩ := h hpc
      rw [if_pos hbusy]
      refine ⟨howner, hprevious, fun hclear => ?_⟩
      have hradio := hidle hclear
      rw [hbusy] at hradio
      cases hradio
    next hnot =>
      rw [if_neg hnot]
      exact h hpc
  | address =>
    rw [tryStep] at hpc ⊢
    split at hpc
    next hup =>
      obtain ⟨howner, hprevious, hidle⟩ := h hpc
      rw [if_pos hup]
      exact ⟨howner, TryState.post_previous _ howner hprevious, hidle⟩
    next hnot =>
      rw [if_neg hnot]
      exact h hpc
  | lose =>
    rw [tryStep] at hpc ⊢
    split at hpc
    next hidle =>
      rw [if_pos hidle]
      exact h hpc
    next hbusy =>
      obtain ⟨howner, hprevious, -⟩ := h hpc
      rw [if_neg hbusy]
      exact ⟨howner, TryState.post_previous _ howner hprevious, fun _ => rfl⟩

theorem beforeClear_start (link : NetLink) (radio : Radio) (pending : List WifiEvent) :
    BeforeClear (tryStart link radio pending) := by
  refine fun _ => ⟨rfl, fun p hp => ?_, nofun⟩
  obtain ⟨event, -, rfl⟩ := List.mem_map.mp hp
  rfl

/-- A verdict rests on the tested connect whatever happens exactly when no event is left in the queue
as the bits are cleared. -/
theorem verdict_by_test_iff (link : NetLink) (radio : Radio) (pending : List WifiEvent)
    (moves : List TryMove) (issued : Bool)
    (hclear : (exec tryStep (tryStart link radio pending) moves).pc = .clear) :
    (∀ rest, RightVerdict
      (exec tryStep (tryStart link radio pending) (moves ++ .next issued :: rest))) ↔
      (exec tryStep (tryStart link radio pending) moves).queue = [] := by
  have hbefore : BeforeClear (exec tryStep (tryStart link radio pending) moves) :=
    exec_invariant (fun _ m h => beforeClear_step m h) (beforeClear_start link radio pending) moves
  simp only [exec_append, exec_cons]
  generalize exec tryStep (tryStart link radio pending) moves = s at hclear hbefore ⊢
  obtain ⟨howner, hprevious, hidle⟩ := hbefore (.inr hclear)
  have hradio := hidle hclear
  constructor
  · intro hright
    cases hqueue : s.queue with
    | nil => rfl
    | cons p rest =>
      have horigin : p.origin = .previous := hprevious p (by simp [hqueue])
      have hverdict := hright [.next true, .next true, .deliver 0]
      obtain ⟨event, origin⟩ := p
      obtain rfl : origin = .previous := horigin
      -- the oldest event is all that the call gets to see
      cases event with
      | staDisconnected =>
        have hjudged := hverdict false true
        simp [tryStep, tryNext, hclear, espWifiConnect, hradio, waitBits, deliver, hqueue,
          handleEvent, JudgedByTest] at hjudged
      | gotIp =>
        have hjudged := hverdict true false
        simp [tryStep, tryNext, hclear, espWifiConnect, hradio, waitBits, deliver, hqueue,
          handleEvent, onGotIp, JudgedByTest] at hjudged
  · intro hempty rest
    refine (exec_invariant (fun _ m h => h.step m) ?_ rest : OnTrack _).right
    simp only [tryStep, tryNext, hclear]
    exact .testing (.inl rfl) ⟨by simp [hempty], .inl hradio, nofun, nofun⟩

theorem verdict_by_test_drained :
    RightVerdict (exec tryStep (tryStart linkUp .up []) ([.next true, .deliver 0] ++
      .next true :: [.next true, .next true, .associate, .address, .deliver 0])) :=
  (verdict_by_test_iff linkUp .up [] [.next true, .deliver 0] true (by decide)).mpr (by decide)
    [.next true, .next true, .associate, .address, .deliver 0]

/-- The call takes its own disconnect for a refusal, and an address of the old network for a success. -/
theorem stale_event_decides :
    ¬RightVerdict (exec tryStep (tryStart linkUp .up [])
      [.next true, .next true, .next true, .next true, .deliver 0]) ∧
    ¬RightVerdict (exec tryStep (tryStart linkUp .up [.gotIp])
      [.next true, .next true, .next true, .next true, .deliver 0]) := by
  constructor
  · intro h
    exact absurd ((h false true (.inl (by decide))).2 rfl rfl) (by decide)
  · intro h
    exact absurd ((h true false (.inl (by decide))).1 rfl) (by decide)

end GateAccess
