import GateAccess.PortalActs

namespace GateAccess

/-- The admin asked for the end of this very session. -/
def FinishAsked (cfg : PortalCfg) (events : List PortalEvent) : Prop :=
  ∃ before req drawn nowMs since, events = before ++ .request req drawn nowMs :: since ∧
    AdminAsked cfg before req drawn nowMs [sendPage .finished, .finish] ∧
    ∀ p ∈ trace (portalStep cfg) (portalRun cfg before) (.request req drawn nowMs :: since),
      p.1.prov.ctx.state = .opened

/-- The form names a user and a password, and not both are right. -/
def wrongForm (cfg : PortalCfg) (req : HttpReq) : Bool :=
  match loginPost (req.form false) with
  | .logins user pass =>
    !decide (cstr user.toList = cstr cfg.adminUser ∧ cstr pass.toList = cstr cfg.adminPassword)
  | _ => false

/-- A login that the session counts as failed. -/
def failsLogin (cfg : PortalCfg) (p : Portal × PortalEvent) : Bool :=
  match p.2 with
  | .request req _ _ =>
    p.1.serves && decide (cfg.handler req = some .loginPost) &&
      decide (p.1.prov.ctx.state = .opened) && wrongForm cfg req
  | _ => false

/-- The session that is open after these events is the one that the press of this tick opened. -/
structure SessionFrom (cfg : PortalCfg) (before : List PortalEvent) (start : ApStart)
    (openMs : UInt32) (since : List PortalEvent) : Prop where
  shut : (portalRun cfg before).prov.ctx.state = .closed
  stays : ∀ p ∈ trace (portalStep cfg) (portalRun cfg (before ++ [.tick true start openMs])) since,
    p.1.prov.ctx.state = .opened

/-- The last of these events hold that many failed logins and no right one. -/
def FailedInARow (cfg : PortalCfg) (opened since : List PortalEvent) (failures : Nat) : Prop :=
  ∃ first rest, since = first ++ rest ∧
    (∀ p ∈ trace (portalStep cfg) (portalRun cfg (opened ++ first)) rest, ∀ drawn, ¬LogsIn cfg p drawn) ∧
    failures ≤ (trace (portalStep cfg) (portalRun cfg (opened ++ first)) rest).countP (failsLogin cfg)

section

variable (p : Portal) (down : Bool) (start : ApStart) (nowMs : UInt32)

theorem provApStart_finish (w : WifiProv) :
    (provApStart w start).1.finishRequested = w.finishRequested := by
  unfold provApStart
  split
  next => rfl
  next =>
    cases start.linkUp with
    | none => rfl
    | some ssid => cases start.httpStarts <;> rfl

theorem wifiProvPoll_finish (w : WifiProv) :
    (wifiProvPoll w down start nowMs).1.finishRequested = w.finishRequested := by
  unfold wifiProvPoll
  simp only
  generalize (if (provButton w.ctx down nowMs).2 = .none then
    provTick (provButton w.ctx down nowMs).1 nowMs else provButton w.ctx down nowMs) = acted
  rcases acted with ⟨ctx, action⟩
  cases action with
  | none => rfl
  | closeAp => rfl
  | openAp =>
    simp only
    split
    next => exact provApStart_finish start _
    next => exact provApStart_finish start _

/-- Every tick takes note of a finish request. -/
theorem portalTick_finish : (portalTick p down start nowMs).prov.finishRequested = false := by
  rw [portalTick_prov]
  unfold wifiProvTick
  split
  next =>
    simp only
    split
    next => rfl
    next => exact wifiProvPoll_finish ..
  next hnot => rw [wifiProvPoll_finish, Bool.eq_false_iff.mpr hnot]

end

/-- Only a tick opens a session. -/
theorem opened_before {cfg : PortalCfg} {p : Portal} {event : PortalEvent}
    (hevent : ∀ down start nowMs, event ≠ .tick down start nowMs)
    (h : (portalStep cfg p event).prov.ctx.state = .opened) : p.prov.ctx.state = .opened := by
  cases event with
  | tick down start nowMs => exact absurd rfl (hevent down start nowMs)
  | verified joined err =>
    simp only [portalStep, portalCall, wifiPostVerified] at h
    split at h
    next => exact h
    next => split_ifs at h <;> exact h
  | request req drawn nowMs =>
    by_cases hserves : p.serves = true
    · have hs := handleRequest_step cfg p req drawn nowMs
      rw [portalStep, portalCall, if_pos hserves] at h
      generalize handleRequest cfg p req drawn nowMs = out at hs h
      cases hs with
      | served | finished | tries => exact h
      | loggedIn _ _ hopen => exact hopen
      | loggedOut =>
        simp only [Portal.withCtx, provSessionLogout] at h
        split at h <;> exact h
      | notLoggedIn ctx _ _ _ hctx =>
        rcases hctx with rfl | ⟨hopen, -⟩
        · exact h
        · exact hopen
    · simpa only [portalStep, portalCall, if_neg hserves] using h

/-- A finish that is still to be noted was asked for in the session that is open. -/
theorem finishAsked_of_pending {cfg : PortalCfg} {events : List PortalEvent}
    (hpending : (portalRun cfg events).prov.finishRequested = true)
    (hopen : (portalRun cfg events).prov.ctx.state = .opened) : FinishAsked cfg events := by
  induction events using List.reverseRecOn with
  | nil => cases hpending
  | append_singleton events event ih =>
    rw [portalRun, exec_concat] at hpending hopen
    by_cases hwas : (portalRun cfg events).prov.finishRequested = true
    · have hnotick : ∀ down start nowMs, event ≠ .tick down start nowMs := by
        rintro down start nowMs rfl
        have hnoted : (portalStep cfg (portalRun cfg events) (.tick down start nowMs)).prov.finishRequested =
            false := portalTick_finish ..
        rw [hnoted] at hpending
        cases hpending
      have hbefore := opened_before hnotick hopen
      obtain ⟨before, req, drawn, nowMs, since, rfl, hasked, hsince⟩ := ih hwas hbefore
      refine ⟨before, req, drawn, nowMs, since ++ [event], by simp, hasked, ?_⟩
      rw [← List.cons_append, trace_concat]
      simp only [List.mem_append, List.mem_singleton, or_imp, forall_and, forall_eq]
      refine ⟨hsince, ?_⟩
      rw [← exec_append]
      exact hbefore
    · cases event with
      | tick down start nowMs =>
        have hnoted : (portalStep cfg (portalRun cfg events) (.tick down start nowMs)).prov.finishRequested =
            false := portalTick_finish ..
        rw [hnoted] at hpending
        cases hpending
      | verified joined err =>
        simp only [portalStep, portalCall, wifiPostVerified] at hpending
        split at hpending
        next => exact absurd hpending hwas
        next => split_ifs at hpending <;> exact absurd hpending hwas
      | request req drawn nowMs =>
        have hbefore := opened_before (by simp) hopen
        by_cases hserves : (portalRun cfg events).serves = true
        · have hcall : portalCall cfg (portalRun cfg events) (.request req drawn nowMs) =
              handleRequest cfg (portalRun cfg events) req drawn nowMs := if_pos hserves
          have hs := handleRequest_step cfg (portalRun cfg events) req drawn nowMs
          rw [portalStep] at hpending
          rw [← hcall] at hs
          generalize hout : portalCall cfg (portalRun cfg events) (.request req drawn nowMs) = out
            at hs hpending
          cases hs with
          | finished _ hauth =>
            refine ⟨events, req, drawn, nowMs, [], rfl, ⟨by rw [hout], hauth⟩, ?_⟩
            simpa using hbefore
          | served | loggedIn | notLoggedIn | loggedOut | tries => exact absurd hpending hwas
        · simp only [portalStep, portalCall, if_neg hserves] at hpending
          exact absurd hpending hwas

theorem wrongForm_iff {cfg : PortalCfg} {req : HttpReq} :
    wrongForm cfg req = true ↔ (loginPost (req.form false)).isLogin = true ∧ ¬RightForm cfg req := by
  rw [rightForm_iff, wrongForm]
  cases loginPost (req.form false) with
  | invalid | refused => simp [LoginPost.isLogin]
  | logins user pass => simp [LoginPost.isLogin, imp_iff_not_or]

/-- A tick that finds no session opens one by a press and no other way. -/
theorem portalPoll_opens {p : Portal} (h : p.prov.ctx.state = .closed) (down : Bool)
    (start : ApStart) (nowMs : UInt32)
    (hopen : (portalPoll p down start nowMs).prov.ctx.state = .opened) :
    down = true ∧ (portalPoll p down start nowMs).prov.ctx.openedMs = nowMs ∧
      (portalPoll p down start nowMs).prov.ctx.loginFailures = 0 := by
  rcases provButton_shut h down nowMs with ⟨hnone, hclosed⟩ | ⟨hopens, -⟩
  · have htick : provTick (provButton p.prov.ctx down nowMs).1 nowMs =
        ((provButton p.prov.ctx down nowMs).1, .none) := by
      rw [provTick, if_pos (by simp [hclosed])]
    have hsame : (portalPoll p down start nowMs).prov.ctx = (provButton p.prov.ctx down nowMs).1 := by
      simp only [portalPoll, hnone, if_true, htick]
      rfl
    rw [hsame, hclosed] at hopen
    cases hopen
  · have hctx : down = true ∧ (provButton p.prov.ctx down nowMs).1.openedMs = nowMs ∧
        (provButton p.prov.ctx down nowMs).1.loginFailures = 0 := by
      unfold provButton at hopens ⊢
      split_ifs at hopens ⊢ with hup
      exact ⟨by simpa using hup, rfl, rfl⟩
    have hkeep : (portalStart (p.withCtx (provButton p.prov.ctx down nowMs).1) start).1.prov.ctx =
        (provButton p.prov.ctx down nowMs).1 := by
      rw [(portalStart_prov _ start).1, (provApStart_cases _ start).2]
      rfl
    simp only [portalPoll, hopens, reduceCtorEq, if_false] at hopen ⊢
    split at hopen
    next hup =>
      rw [if_pos hup, hkeep]
      exact hctx
    next =>
      have hshut := closeSession_closed
        (portalStart (p.withCtx (provButton p.prov.ctx down nowMs).1) start).1.prov.ctx
      exact absurd (hopen.symm.trans hshut) (by simp)

/-- A step after which a session is open: it opened it, or found it and counted a failure, cleared the
count or left it. -/
inductive SessionGoes (cfg : PortalCfg) (p : Portal) (event : PortalEvent) (next : Portal) : Prop
  | opens (start nowMs) : p.prov.ctx.state = .closed → event = .tick true start nowMs →
      next.prov.ctx.openedMs = nowMs → next.prov.ctx.loginFailures = 0 → SessionGoes cfg p event next
  | clears (drawn) : p.prov.ctx.state = .opened → LogsIn cfg (p, event) drawn →
      next.prov.ctx.openedMs = p.prov.ctx.openedMs → next.prov.ctx.loginFailures = 0 →
      SessionGoes cfg p event next
  | counts : p.prov.ctx.state = .opened → (∀ drawn, ¬LogsIn cfg (p, event) drawn) →
      next.prov.ctx.openedMs = p.prov.ctx.openedMs →
      next.prov.ctx.loginFailures.toNat ≤
        p.prov.ctx.loginFailures.toNat + (failsLogin cfg (p, event)).toNat →
      SessionGoes cfg p event next

theorem not_logsIn {cfg : PortalCfg} {p : Portal} {event : PortalEvent}
    (h : ∀ req drawn nowMs, event = .request req drawn nowMs → p.serves = true →
      cfg.handler req = some .loginPost → p.prov.ctx.state = .opened → ¬RightForm cfg req)
    (drawn : Bytes 16) : ¬LogsIn cfg (p, event) drawn := by
  rintro ⟨req, nowMs, hcall, hserves, hroute, hopen, hright⟩
  exact h req drawn nowMs hcall hserves hroute hopen hright

theorem tick_goes {cfg : PortalCfg} {p : Portal} {down : Bool} {start : ApStart} {nowMs : UInt32}
    (h : (portalStep cfg p (.tick down start nowMs)).prov.ctx.state = .opened) :
    SessionGoes cfg p (.tick down start nowMs) (portalStep cfg p (.tick down start nowMs)) := by
  -- the part after a finish request, on a portal with the same session
  have hpoll : ∀ q : Portal, q.prov.ctx = p.prov.ctx →
      portalStep cfg p (.tick down start nowMs) = portalPoll q down start nowMs →
      SessionGoes cfg p (.tick down start nowMs) (portalStep cfg p (.tick down start nowMs)) := by
    intro q hctx hstep
    rw [hstep] at h ⊢
    cases hs : p.prov.ctx.state with
    | closed =>
      obtain ⟨rfl, hms, hfailures⟩ := portalPoll_opens (by rw [hctx, hs]) down start nowMs h
      exact .opens start nowMs hs rfl hms hfailures
    | opened =>
      rcases portalPoll_open (p := q) (by rw [hctx, hs]) down start nowMs with
        ⟨-, -, -, hms, hfailures⟩ | ⟨hclosed, -⟩
      · rw [hctx] at hms hfailures
        exact .counts hs (not_logsIn (by simp)) hms (by rw [hfailures]; exact Nat.le_add_right _ _)
      · exact absurd (h.symm.trans hclosed) (by simp)
  have hstep : portalStep cfg p (.tick down start nowMs) = portalTick p down start nowMs := rfl
  rw [portalTick] at hstep
  by_cases hflag : p.prov.finishRequested = true
  · rw [if_pos hflag] at hstep
    simp only at hstep
    split at hstep
    next =>
      have hclosed : (portalStep cfg p (.tick down start nowMs)).prov.ctx.state = .closed := by
        rw [hstep, Portal.unnamed, portalStop_prov]
        exact closeSession_closed p.prov.ctx
      exact absurd (h.symm.trans hclosed) (by simp)
    next hact =>
      have hkept : (provClose p.prov.ctx).1 = p.prov.ctx := by
        unfold provClose closeSession at hact ⊢
        split_ifs at hact ⊢
        · rfl
        · exact absurd rfl hact
      exact hpoll _ hkept hstep
  · rw [if_neg hflag] at hstep
    exact hpoll p rfl hstep

theorem request_goes {cfg : PortalCfg} {p : Portal} {req : HttpReq} {drawn : Bytes 16}
    {nowMs : UInt32} (h : (portalStep cfg p (.request req drawn nowMs)).prov.ctx.state = .opened) :
    SessionGoes cfg p (.request req drawn nowMs) (portalStep cfg p (.request req drawn nowMs)) := by
  have hwas := opened_before (by simp) h
  have hkept : (∀ drawn', ¬LogsIn cfg (p, .request req drawn nowMs) drawn') →
      (portalStep cfg p (.request req drawn nowMs)).prov.ctx.openedMs = p.prov.ctx.openedMs →
      (portalStep cfg p (.request req drawn nowMs)).prov.ctx.loginFailures =
        p.prov.ctx.loginFailures →
      SessionGoes cfg p (.request req drawn nowMs) (portalStep cfg p (.request req drawn nowMs)) :=
    fun hnone hms hfailures =>
      .counts hwas hnone hms (by rw [hfailures]; exact Nat.le_add_right _ _)
  by_cases hserves : p.serves = true
  · have hstep : portalStep cfg p (.request req drawn nowMs) =
        (handleRequest cfg p req drawn nowMs).1 := by
      rw [portalStep, portalCall, if_pos hserves]
    have hs := handleRequest_step cfg p req drawn nowMs
    generalize handleRequest cfg p req drawn nowMs = out at hs hstep
    have hroute : cfg.handler req ≠ some .loginPost →
        ∀ drawn', ¬LogsIn cfg (p, .request req drawn nowMs) drawn' := by
      intro hother
      refine not_logsIn fun req' _ _ hcall _ hlogin => ?_
      cases hcall
      exact absurd hlogin hother
    cases hs with
    | served _ hlogin => exact hkept (hroute hlogin) (by rw [hstep]) (by rw [hstep])
    | finished hfinish =>
      exact hkept (hroute (by simp [hfinish])) (by rw [hstep]) (by rw [hstep])
    | tries _ hpost => exact hkept (hroute (by simp [hpost])) (by rw [hstep]) (by rw [hstep])
    | loggedOut _ hout =>
      have hctx : (provSessionLogout p.prov.ctx).openedMs = p.prov.ctx.openedMs ∧
          (provSessionLogout p.prov.ctx).loginFailures = p.prov.ctx.loginFailures := by
        unfold provSessionLogout
        split <;> exact ⟨rfl, rfl⟩
      exact hkept (hroute (by simp [hout])) (by rw [hstep]; exact hctx.1)
        (by rw [hstep]; exact hctx.2)
    | loggedIn _ hlogin hopen hright =>
      exact .clears drawn hwas ⟨req, nowMs, rfl, hserves, hlogin, hopen, hright⟩ (by rw [hstep]; rfl)
        (by rw [hstep]; rfl)
    | notLoggedIn ctx _ hlogin hwrong hctx =>
      have hnone : ∀ drawn', ¬LogsIn cfg (p, .request req drawn nowMs) drawn' := by
        refine not_logsIn fun req' _ _ hcall _ _ hopen => ?_
        cases hcall
        exact hwrong hopen
      rcases hctx with rfl | ⟨hopen, hform, rfl⟩
      · exact hkept hnone (by rw [hstep]; rfl) (by rw [hstep]; rfl)
      · have hfails : failsLogin cfg (p, .request req drawn nowMs) = true := by
          simp [failsLogin, hserves, hlogin, hopen, wrongForm_iff, hform, hwrong hopen]
        rw [hstep] at h ⊢
        rcases provLogin_wrong hopen with ⟨-, hclosed⟩ | ⟨-, hsum, hnext⟩
        · exact absurd (h.symm.trans hclosed) (by simp)
        · refine .counts hwas hnone (by simp [Portal.withCtx, hnext]) ?_
          simp [Portal.withCtx, hnext, hsum, hfails]
  · have hstep : portalStep cfg p (.request req drawn nowMs) = p := by
      rw [portalStep, portalCall, if_neg hserves]
    refine hkept ?_ (by rw [hstep]) (by rw [hstep])
    exact not_logsIn fun _ _ _ _ hserved => absurd hserved hserves

theorem portalStep_goes {cfg : PortalCfg} {p : Portal} {event : PortalEvent}
    (h : (portalStep cfg p event).prov.ctx.state = .opened) :
    SessionGoes cfg p event (portalStep cfg p event) := by
  cases event with
  | tick down start nowMs => exact tick_goes h
  | request req drawn nowMs => exact request_goes h
  | verified joined err =>
    have hsame : (portalStep cfg p (.verified joined err)).prov = p.prov := by
      simp only [portalStep, portalCall, wifiPostVerified]
      split
      next => rfl
      next => split_ifs <;> rfl
    rw [hsame] at h
    exact .counts h (not_logsIn (by simp)) (by rw [hsame])
      (by rw [hsame]; exact Nat.le_add_right _ _)

/-- An open session was opened by a press, at the time it keeps; and its failures were counted. -/
theorem session_of_open {cfg : PortalCfg} {events : List PortalEvent}
    (h : (portalRun cfg events).prov.ctx.state = .opened) :
    ∃ before start openMs since, events = before ++ .tick true start openMs :: since ∧
      SessionFrom cfg before start openMs since ∧
      (portalRun cfg events).prov.ctx.openedMs = openMs ∧
      FailedInARow cfg (before ++ [.tick true start openMs]) since
        (portalRun cfg events).prov.ctx.loginFailures.toNat := by
  induction events using List.reverseRecOn with
  | nil => cases h
  | append_singleton events event ih =>
    rw [portalRun, exec_concat] at h ⊢
    have hgoes := portalStep_goes h
    generalize portalStep cfg (portalRun cfg events) event = next at hgoes ⊢
    -- a step within the session, by which the count of failures comes to this
    have hwithin : ∀ failures : Nat, (portalRun cfg events).prov.ctx.state = .opened →
        next.prov.ctx.openedMs = (portalRun cfg events).prov.ctx.openedMs →
        (∀ opened since, FailedInARow cfg opened since
            (portalRun cfg events).prov.ctx.loginFailures.toNat →
          opened ++ since = events → FailedInARow cfg opened (since ++ [event]) failures) →
        ∃ before start openMs since, events ++ [event] = before ++ .tick true start openMs :: since ∧
          SessionFrom cfg before start openMs since ∧ next.prov.ctx.openedMs = openMs ∧
          FailedInARow cfg (before ++ [.tick true start openMs]) since failures := by
      intro failures hopen hms hcount
      obtain ⟨before, start, openMs, since, hevents, hfrom, hsame, hrow⟩ := ih hopen
      refine ⟨before, start, openMs, since ++ [event], by simp [hevents], ⟨hfrom.shut, ?_⟩,
        hms.trans hsame, hcount _ _ hrow (by simp [hevents])⟩
      rw [trace_concat]
      simp only [List.mem_append, List.mem_singleton, or_imp, forall_and, forall_eq]
      refine ⟨hfrom.stays, ?_⟩
      rw [← exec_append, List.append_assoc, List.singleton_append, ← hevents]
      exact hopen
    cases hgoes with
    | opens start nowMs hclosed hevent hms hfailures =>
      subst hevent
      refine ⟨events, start, nowMs, [], rfl, ⟨hclosed, by simp⟩, hms, [], [], rfl, by simp, ?_⟩
      rw [hfailures]
      exact Nat.zero_le _
    | clears drawn hopen hlogs hms hfailures =>
      refine hwithin _ hopen hms fun opened since _ _ => ⟨since ++ [event], [], by simp, by simp, ?_⟩
      rw [hfailures]
      exact Nat.zero_le _
    | counts hopen hnone hms hle =>
      refine hwithin _ hopen hms fun opened since hrow hsplit => ?_
      obtain ⟨first, rest, rfl, hnologin, hcount⟩ := hrow
      refine ⟨first, rest ++ [event], by simp, ?_, ?_⟩
      all_goals
        rw [trace_concat, ← exec_append, List.append_assoc, hsplit]
      · simp only [List.mem_append, List.mem_singleton, or_imp, forall_and, forall_eq]
        exact ⟨hnologin, hnone⟩
      · rw [List.countP_append, List.countP_singleton]
        refine Nat.le_trans hle (Nat.add_le_add hcount ?_)
        cases failsLogin cfg (portalRun cfg events, event) <;> simp

/-- A session ends at a tick five minutes after the press that opened it, by the clock of 32 bits, or
when its own admin has asked for that; or by a failed login on top of four others with no right one
since. Nothing else ends it. -/
theorem session_ends_by (cfg : PortalCfg) (events : List PortalEvent) (event : PortalEvent)
    (hopen : (portalRun cfg events).prov.ctx.state = .opened)
    (hclosed : (portalRun cfg (events ++ [event])).prov.ctx.state = .closed) :
    ∃ before start openMs since, events = before ++ .tick true start openMs :: since ∧
      SessionFrom cfg before start openMs since ∧
      ((∃ down start' nowMs, event = .tick down start' nowMs ∧
        (provSessionMs ≤ nowMs - openMs ∨ FinishAsked cfg events)) ∨
      failsLogin cfg (portalRun cfg events, event) = true ∧
        FailedInARow cfg (before ++ [.tick true start openMs]) since 4) := by
  obtain ⟨before, start, openMs, since, hevents, hfrom, hms, first, rest, hsince, hnologin, hcount⟩ :=
    session_of_open hopen
  refine ⟨before, start, openMs, since, hevents, hfrom, ?_⟩
  rw [portalRun, exec_concat] at hclosed
  cases event with
  | tick down start' nowMs =>
    refine .inl ⟨down, start', nowMs, rfl, ?_⟩
    have hstep : portalStep cfg (portalRun cfg events) (.tick down start' nowMs) =
        portalTick (portalRun cfg events) down start' nowMs := rfl
    by_cases hpending : (portalRun cfg events).prov.finishRequested = true
    · exact .inr (finishAsked_of_pending hpending hopen)
    · rw [hstep, portalTick, if_neg hpending] at hclosed
      rcases portalPoll_open hopen down start' nowMs with ⟨hstill, -⟩ | ⟨-, hover⟩
      · rw [hstill] at hclosed
        cases hclosed
      · exact .inl (hms ▸ hover)
  | verified joined err =>
    exfalso
    simp only [portalStep, portalCall, wifiPostVerified] at hclosed
    split at hclosed
    next => exact absurd (hopen.symm.trans hclosed) (by simp)
    next => split_ifs at hclosed <;> exact absurd (hopen.symm.trans hclosed) (by simp)
  | request req drawn nowMs =>
    by_cases hserves : (portalRun cfg events).serves = true
    · have hs := handleRequest_step cfg (portalRun cfg events) req drawn nowMs
      rw [portalStep, portalCall, if_pos hserves] at hclosed
      generalize handleRequest cfg (portalRun cfg events) req drawn nowMs = out at hs hclosed
      cases hs with
      | notLoggedIn ctx _ hroute hwrong hctx =>
        rcases hctx with rfl | ⟨-, hform, rfl⟩
        · exact absurd (hopen.symm.trans hclosed) (by simp)
        · rcases provLogin_wrong hopen with ⟨hfour, -⟩ | ⟨-, -, hnext⟩
          · refine .inr ⟨?_, first, rest, hsince, hnologin, hfour.trans hcount⟩
            simp [failsLogin, hserves, hroute, hopen, wrongForm_iff, hform, hwrong hopen]
          · rw [hnext] at hclosed
            exact absurd (hopen.symm.trans hclosed) (by simp)
      | loggedOut =>
        simp only [Portal.withCtx, provSessionLogout] at hclosed
        split at hclosed <;> exact absurd (hopen.symm.trans hclosed) (by simp)
      | served | loggedIn | finished | tries =>
        exact absurd (hopen.symm.trans hclosed) (by simp)
    · simp only [portalStep, portalCall, if_neg hserves] at hclosed
      exact absurd (hopen.symm.trans hclosed) (by simp)

/-- A session the admin opens, logs in to and asks to end. -/
def finishedSession : List PortalEvent :=
  openedSession ++ [postedLogin "u=admin&p=senha-do-portao",
    .request ⟨.get, ascii "/finish", zeroSid, [], 0⟩ (zeros 16) 7000]

/-- A session with four guesses at the password. -/
def guessedSession : List PortalEvent :=
  openedSession ++ List.replicate 4 (postedLogin "u=admin&p=senha")

theorem session_ends_by_bench :
    (∃ before start openMs since, finishedSession = before ++ .tick true start openMs :: since ∧
      SessionFrom benchPortal before start openMs since ∧
      (provSessionMs ≤ 7020 - openMs ∨ FinishAsked benchPortal finishedSession)) ∧
    ∃ before start openMs since, guessedSession = before ++ .tick true start openMs :: since ∧
      SessionFrom benchPortal before start openMs since ∧
      FailedInARow benchPortal (before ++ [.tick true start openMs]) since 4 := by
  constructor
  · obtain ⟨before, start, openMs, since, hevents, hfrom, ⟨_, _, _, hcall, hcause⟩ | ⟨hfails, -⟩⟩ :=
      session_ends_by benchPortal finishedSession (.tick false ⟨none, false⟩ 7020) (by decide +kernel)
        (by decide +kernel)
    · cases hcall
      exact ⟨before, start, openMs, since, hevents, hfrom, hcause⟩
    · cases hfails
  · obtain ⟨before, start, openMs, since, hevents, hfrom, ⟨_, _, _, hcall, -⟩ | ⟨-, hrow⟩⟩ :=
      session_ends_by benchPortal guessedSession (postedLogin "u=admin&p=senha") (by decide +kernel)
        (by decide +kernel)
    · cases hcall
    · exact ⟨before, start, openMs, since, hevents, hfrom, hrow⟩

end GateAccess
