import GateAccess.ProvLogic
import GateAccess.WrapClock

namespace GateAccess

/-- What one call does to the button's flags. -/
inductive ButtonStep (ctx : ProvCtx) (call : ProvCall) : ProvCtx × ProvAction → Prop
  | kept (ctx' a) : (∀ t, call ≠ .button false t) → ctx'.buttonDown = ctx.buttonDown →
      ctx'.buttonConsumed = ctx.buttonConsumed → ctx'.buttonDownMs = ctx.buttonDownMs →
      a ≠ .openAp → ButtonStep ctx call (ctx', a)
  | released (t ctx') : call = .button false t → ctx'.buttonDown = false →
      ButtonStep ctx call (ctx', .none)
  | pressed (t ctx') : call = .button true t → ctx'.buttonDown = true →
      ctx'.buttonDownMs = UInt32.ofNat t → ButtonStep ctx call (ctx', .none)
  | opened (t ctx') : call = .button true t → ctx.buttonDown = true →
      ctx'.buttonConsumed = true → ctx'.buttonDownMs = ctx.buttonDownMs →
      ButtonStep ctx call (ctx', .openAp)

theorem closeSession_button (ctx : ProvCtx) :
    (closeSession ctx).1.buttonDown = ctx.buttonDown ∧
      (closeSession ctx).1.buttonConsumed = ctx.buttonConsumed ∧
      (closeSession ctx).1.buttonDownMs = ctx.buttonDownMs ∧ (closeSession ctx).2 ≠ .openAp := by
  unfold closeSession
  split <;> simp

theorem provLogin_button (ctx : ProvCtx) (ok : Bool) :
    (provLogin ctx ok).1.buttonDown = ctx.buttonDown ∧
      (provLogin ctx ok).1.buttonConsumed = ctx.buttonConsumed ∧
      (provLogin ctx ok).1.buttonDownMs = ctx.buttonDownMs := by
  unfold provLogin
  split
  next => exact ⟨rfl, rfl, rfl⟩
  split
  next => exact ⟨rfl, rfl, rfl⟩
  simp only
  by_cases hf : ctx.loginFailures < 255
  all_goals
    simp only [hf, if_true, if_false]
    split
    next =>
      obtain ⟨hdown, hconsumed, hms, -⟩ := closeSession_button _
      exact ⟨hdown, hconsumed, hms⟩
    next => exact ⟨rfl, rfl, rfl⟩

theorem provCall_button (ctx : ProvCtx) (call : ProvCall) :
    ButtonStep ctx call (provCall ctx call) := by
  obtain ⟨hdown, hconsumed, hms, hact⟩ := closeSession_button ctx
  cases call with
  | button down t =>
    simp only [provCall, provButton]
    cases down with
    | false => exact .released t _ rfl rfl
    | true =>
      simp only [Bool.not_true, Bool.false_eq_true, if_false]
      split_ifs with hup hbusy hheld
      · exact .pressed t _ rfl rfl rfl
      · exact .kept _ _ (by simp) rfl rfl rfl (by simp)
      · exact .kept _ _ (by simp) rfl rfl rfl (by simp)
      · exact .opened t _ rfl (by simpa using hup) rfl rfl
  | tick t =>
    simp only [provCall, provTick]
    split_ifs
    · exact .kept _ _ (by simp) rfl rfl rfl (by simp)
    · exact .kept _ _ (by simp) hdown hconsumed hms hact
    · exact .kept _ _ (by simp) rfl rfl rfl (by simp)
  | login ok =>
    obtain ⟨hdown, hconsumed, hms⟩ := provLogin_button ctx ok
    exact .kept _ _ (by simp) hdown hconsumed hms (by simp)
  | close => exact .kept _ _ (by simp) hdown hconsumed hms hact
  | logout =>
    simp only [provCall, provSessionLogout]
    split <;> exact .kept _ _ (by simp) rfl rfl rfl (by simp)

/-- No call of the stretch handed out an opening. -/
def NoOpening (ctx : ProvCtx) (calls : List ProvCall) : Prop :=
  ∀ p ∈ trace provStep ctx calls, (provCall p.1 p.2).2 ≠ .openAp

theorem noOpening_concat {ctx : ProvCtx} {calls : List ProvCall} {call : ProvCall} :
    NoOpening ctx (calls ++ [call]) ↔
      NoOpening ctx calls ∧ (provCall (exec provStep ctx calls) call).2 ≠ .openAp := by
  simp only [NoOpening, trace_concat, List.mem_append, List.mem_singleton, or_imp, forall_and,
    forall_eq]

theorem NoOpening.split {ctx : ProvCtx} {calls rest : List ProvCall}
    (h : NoOpening ctx (calls ++ rest)) :
    NoOpening ctx calls ∧ NoOpening (exec provStep ctx calls) rest := by
  unfold NoOpening at h
  rw [trace_append] at h
  exact ⟨fun p hp => h p (List.mem_append_left _ hp), fun p hp => h p (List.mem_append_right _ hp)⟩

/-- While the button is down a call keeps the press, and spends it only by opening a session. -/
theorem provCall_held {ctx : ProvCtx} {call : ProvCall} (hdown : ctx.buttonDown = true)
    (hcall : ∀ t, call ≠ .button false t) :
    (provStep ctx call).buttonDown = true ∧ (provStep ctx call).buttonDownMs = ctx.buttonDownMs ∧
      ((provStep ctx call).buttonConsumed = false ↔
        ctx.buttonConsumed = false ∧ (provCall ctx call).2 ≠ .openAp) := by
  by_cases hbutton : ∃ t, call = .button true t
  · obtain ⟨t, rfl⟩ := hbutton
    simp only [provStep, provCall, provButton, hdown, Bool.not_true, Bool.false_eq_true, if_false]
    split_ifs <;> simp [hdown]
  · have hs := provCall_button ctx call
    unfold provStep
    generalize provCall ctx call = out at hs ⊢
    cases hs with
    | kept _ _ _ hsame hconsumed hms hact => exact ⟨hsame.trans hdown, hms, by simp [hconsumed, hact]⟩
    | released t _ hreleased => exact absurd hreleased (hcall t)
    | pressed t _ hpressed => exact absurd ⟨t, hpressed⟩ hbutton
    | opened t _ hopened => exact absurd ⟨t, hopened⟩ hbutton

/-- A press that began with the sample at `s`, after `first`, and was not released in `mid`. -/
structure Pressed (first : List ProvCall) (s : Nat) (mid : List ProvCall) : Prop where
  up : (provRun first).buttonDown = false
  held : ∀ t, .button false t ∉ mid

theorem Pressed.concat {first mid : List ProvCall} {s : Nat} {call : ProvCall}
    (h : Pressed first s mid) (hcall : ∀ t, call ≠ .button false t) : Pressed first s (mid ++ [call]) := by
  refine ⟨h.up, fun t ht => ?_⟩
  rcases List.mem_append.mp ht with ht | ht
  · exact h.held t ht
  · exact hcall t (List.mem_singleton.mp ht).symm

theorem provStep_pressed {ctx : ProvCtx} (h : ctx.buttonDown = false) (t : Nat) :
    provStep ctx (.button true t) = { ctx with buttonDown := true, buttonDownMs := UInt32.ofNat t } ∧
      (provCall ctx (.button true t)).2 = .none := by
  simp [provStep, provCall, provButton, h]

/-- A released button is good for a session again. -/
theorem provRun_released {calls : List ProvCall} (h : (provRun calls).buttonDown = false) :
    (provRun calls).buttonConsumed = false := by
  refine exec_invariant (I := fun ctx : ProvCtx => ctx.buttonDown = false → ctx.buttonConsumed = false)
    (fun ctx call ih hup => ?_) (fun _ => rfl) calls h
  by_cases hbutton : ∃ down t, call = .button down t
  · obtain ⟨down, t, rfl⟩ := hbutton
    cases down with
    | false => rfl
    | true =>
      cases hdown : ctx.buttonDown with
      | true => rw [(provCall_held hdown (by simp)).1] at hup; cases hup
      | false => rw [(provStep_pressed hdown t).1] at hup; cases hup
  · have hs := provCall_button ctx call
    unfold provStep at hup ⊢
    generalize provCall ctx call = out at hs hup ⊢
    cases hs with
    | kept _ _ _ hsame hconsumed => exact hconsumed.trans (ih (hsame.symm.trans hup))
    | released t _ hcall => exact absurd ⟨_, t, hcall⟩ hbutton
    | pressed t _ hcall => exact absurd ⟨_, t, hcall⟩ hbutton
    | opened t _ hcall => exact absurd ⟨_, t, hcall⟩ hbutton

/-- While a press lasts, the state has the sample it began with, and it is good for a session until
one was opened. -/
theorem Pressed.state {first mid : List ProvCall} {s : Nat} (h : Pressed first s mid) :
    (provRun (first ++ .button true s :: mid)).buttonDown = true ∧
      (provRun (first ++ .button true s :: mid)).buttonDownMs = UInt32.ofNat s ∧
      ((provRun (first ++ .button true s :: mid)).buttonConsumed = false ↔
        NoOpening (provRun first) (.button true s :: mid)) := by
  induction mid using List.reverseRecOn with
  | nil =>
    obtain ⟨hstep, hact⟩ := provStep_pressed h.up s
    rw [provRun, exec_concat, hstep]
    refine ⟨rfl, rfl, iff_of_true (provRun_released h.up) fun p hp => ?_⟩
    rw [trace_cons, trace_nil, List.mem_singleton] at hp
    rw [hp, hact]
    simp
  | append_singleton mid call ih =>
    obtain ⟨hdown, hms, hgood⟩ := ih ⟨h.up, fun t ht => h.held t (by simp [ht])⟩
    have hcall (t : Nat) : call ≠ .button false t := fun hc => h.held t (by simp [hc])
    obtain ⟨hdown', hms', hgood'⟩ := provCall_held hdown hcall
    have hsplit : provRun (first ++ .button true s :: (mid ++ [call])) =
        provStep (provRun (first ++ .button true s :: mid)) call := by
      rw [← List.cons_append, ← List.append_assoc, provRun, exec_concat]
    rw [hsplit, hgood', hgood]
    refine ⟨hdown', hms'.trans hms, ?_⟩
    rw [← List.cons_append, noOpening_concat, provRun, provRun, exec_append]

/-- A button that is down is in a press. -/
theorem pressed_exists {calls : List ProvCall} (h : (provRun calls).buttonDown = true) :
    ∃ first s mid, calls = first ++ .button true s :: mid ∧ Pressed first s mid := by
  induction calls using List.reverseRecOn with
  | nil => simp [provInit] at h
  | append_singleton calls call ih =>
    have extend (hdown : (provRun calls).buttonDown = true) (hcall : ∀ t, call ≠ .button false t) :
        ∃ first s mid, calls ++ [call] = first ++ .button true s :: mid ∧ Pressed first s mid := by
      obtain ⟨first, s, mid, rfl, hpress⟩ := ih hdown
      exact ⟨first, s, mid ++ [call], by simp, hpress.concat hcall⟩
    have hs := provCall_button (provRun calls) call
    rw [provRun, exec_concat, provStep] at h
    generalize provCall (provRun calls) call = out at hs h
    cases hs with
    | kept _ _ hcall hdown => exact extend (hdown ▸ h) hcall
    | released t _ _ hup => rw [hup] at h; cases h
    | pressed t _ hcall =>
      cases hdown : (provRun calls).buttonDown with
      | true => exact extend hdown (by simp [hcall])
      | false => exact ⟨calls, t, [], by rw [hcall], hdown, by simp⟩
    | opened t _ hcall hdown => exact extend hdown (by simp [hcall])

/-- The button has been down since a sample of the run, and unless a session was opened in the
meantime the press is still good for one. -/
def HeldSince (calls : List ProvCall) : Prop :=
  ∃ first s mid, calls = first ++ .button true s :: mid ∧ (∀ t, .button false t ∉ mid) ∧
    (provRun calls).buttonDownMs = UInt32.ofNat s ∧
    ((provRun calls).buttonConsumed = false → NoOpening (provRun first) (.button true s :: mid))

theorem heldSince (calls : List ProvCall) (h : (provRun calls).buttonDown = true) :
    HeldSince calls := by
  obtain ⟨first, s, mid, rfl, hpress⟩ := pressed_exists h
  obtain ⟨-, hms, hgood⟩ := hpress.state
  exact ⟨first, s, mid, rfl, hpress.held, hms, hgood.mp⟩

/-- The samples and ticks were taken at times that never go back. -/
def Monotonic (calls : List ProvCall) : Prop :=
  (calls.filterMap ProvCall.time).Pairwise (· ≤ ·)

theorem Monotonic.le {first mid : List ProvCall} {s t : Nat} {call : ProvCall}
    (h : Monotonic (first ++ .button true s :: mid ++ [call])) (ht : call.time = some t) : s ≤ t := by
  have hs : ProvCall.time (.button true s) = some s := rfl
  unfold Monotonic at h
  rw [List.append_assoc, List.filterMap_append, List.cons_append,
    List.filterMap_cons_some hs, List.filterMap_append,
    List.filterMap_cons_some ht] at h
  have hcons := List.pairwise_cons.mp (List.pairwise_append.mp h).2.1
  exact hcons.1 t (by simp)

/-- Between two openings, an open session is the one opened first. -/
theorem opened_since {ctx : ProvCtx} {calls : List ProvCall} (hno : NoOpening ctx calls) :
    (exec provStep ctx calls).state = .opened →
      ctx.state = .opened ∧ (exec provStep ctx calls).openedMs = ctx.openedMs := by
  apply exec_induction (I := fun c : ProvCtx => c.state = .opened →
    ctx.state = .opened ∧ c.openedMs = ctx.openedMs)
  · intro p hp ih hopen
    have hact := hno p hp
    have hs := provCall_step p.1 p.2
    rcases hout : provCall p.1 p.2 with ⟨next, action⟩
    have hnext : provStep p.1 p.2 = next := congrArg Prod.fst hout
    rw [hout] at hs hact
    rw [hnext] at hopen ⊢
    cases hs with
    | kept _ hstate hms =>
      obtain ⟨hstart, hsame⟩ := ih (hstate ▸ hopen)
      exact ⟨hstart, hms.trans hsame⟩
    | opened => exact absurd rfl hact
    | closed _ _ hclosed => rw [hclosed] at hopen; cases hopen
    | dropped _ _ hclosed => rw [hclosed] at hopen; cases hopen
  · exact fun hopen => ⟨hopen, rfl⟩

theorem provTick_expired {ctx : ProvCtx} {t T : Nat}
    (hms : ctx.state = .opened → ctx.openedMs = UInt32.ofNat t)
    (hT : t + provSessionMs.toNat ≤ T) (hspan : T < t + 2 ^ 32) :
    (provTick ctx (UInt32.ofNat T)).1.state = .closed := by
  unfold provTick
  by_cases hs : ctx.state = .opened
  · have hexpired : UInt32.ofNat T - ctx.openedMs ≥ provSessionMs := by
      rw [hms hs]
      exact le_elapsed hT hspan
    rw [if_neg (not_not.mpr hs), if_pos hexpired]
    exact closeSession_closed ctx
  · rw [if_pos hs]
    cases hc : ctx.state with
    | closed => rfl
    | opened => exact absurd hc hs

theorem provCall_opened {ctx : ProvCtx} {call : ProvCall} (h : (provCall ctx call).2 = .openAp) :
    ∃ t, call = .button true t ∧ ctx.state = .closed ∧ ctx.buttonDown = true ∧
      ctx.buttonConsumed = false ∧ provHoldMs ≤ UInt32.ofNat t - ctx.buttonDownMs ∧
      (provStep ctx call).openedMs = UInt32.ofNat t := by
  have hs := provCall_step ctx call
  rcases hout : provCall ctx call with ⟨next, action⟩
  have hnext : provStep ctx call = next := congrArg Prod.fst hout
  rw [hout] at hs h
  cases hs with
  | kept => cases h
  | opened t hcall hclosed hdown hconsumed hheld =>
    exact ⟨t, hcall, hclosed, hdown, hconsumed, UInt32.not_lt.mp hheld, congrArg ProvCtx.openedMs hnext⟩
  | closed => cases h
  | dropped => cases h

theorem session_ends {ctx : ProvCtx} {t T : Nat} {mid rest : List ProvCall}
    (hms : ctx.openedMs = UInt32.ofNat t) (hno : NoOpening ctx (mid ++ .tick T :: rest))
    (hT : t + provSessionMs.toNat ≤ T) (hspan : T < t + 2 ^ 32) :
    (exec provStep ctx (mid ++ .tick T :: rest)).state = .closed := by
  obtain ⟨hmid, hrest⟩ := hno.split
  obtain ⟨-, hafter⟩ := NoOpening.split (show NoOpening _ ([.tick T] ++ rest) from hrest)
  have hexpired : (provStep (exec provStep ctx mid) (.tick T)).state = .closed :=
    provTick_expired (fun hs => (opened_since hmid hs).2.trans hms) hT hspan
  rw [exec_append, exec_cons]
  cases hend : (exec provStep (provStep (exec provStep ctx mid) (.tick T)) rest).state with
  | closed => rfl
  | opened =>
    have hopened := (opened_since hafter hend).1
    rw [exec_cons, exec_nil, hexpired] at hopened
    cases hopened

/-- The soft AP opens only on a deliberate hold, and a session does not outlive its time: the first
tick past the end closes it, and nothing but another hold opens one again. -/
theorem opens_only_on_hold :
    (∀ before call, Monotonic (before ++ [call]) → (provCall (provRun before) call).2 = .openAp →
      ∃ t first s mid, call = .button true t ∧ before = first ++ .button true s :: mid ∧
        s + provHoldMs.toNat ≤ t ∧ (∀ u, .button false u ∉ mid) ∧
        (provRun before).state ≠ .opened ∧ NoOpening (provRun first) (.button true s :: mid)) ∧
    ∀ before t mid T rest, (provCall (provRun before) (.button true t)).2 = .openAp →
      NoOpening (provRun (before ++ [.button true t])) (mid ++ .tick T :: rest) →
      t + provSessionMs.toNat ≤ T → T < t + 2 ^ 32 →
      (provRun (before ++ .button true t :: (mid ++ .tick T :: rest))).state = .closed := by
  constructor
  · intro before call hmono hopen
    obtain ⟨t, rfl, hclosed, hdown, hconsumed, hheld, -⟩ := provCall_opened hopen
    obtain ⟨first, s, mid, rfl, hmid, hms, hno⟩ := heldSince before hdown
    have hst : s ≤ t := hmono.le rfl
    rw [hms] at hheld
    exact ⟨t, first, s, mid, rfl, rfl, elapsed_le hst hheld, hmid, by simp [hclosed], hno hconsumed⟩
  · intro before t mid T rest hopen hno hT hspan
    obtain ⟨_, hcall, -, -, -, -, hms⟩ := provCall_opened hopen
    cases hcall
    have hsplit : before ++ .button true t :: (mid ++ .tick T :: rest) =
        (before ++ [.button true t]) ++ (mid ++ .tick T :: rest) := by simp
    rw [hsplit, provRun, exec_append]
    rw [provRun, exec_concat] at hno
    rw [exec_concat]
    exact session_ends hms hno hT hspan

theorem opens_only_on_hold_once :
    (provRun [.button true 0, .button true 5000, .login false, .tick 305000]).state = .closed :=
  opens_only_on_hold.2 [.button true 0] 5000 [.login false] 305000 [] (by decide +kernel)
    (by unfold NoOpening; decide +kernel) (by decide +kernel) (by decide +kernel)

end GateAccess
