import GateAccess.LoginBound
import GateAccess.ProvHttp

namespace GateAccess

/-- The form has this field, whole, and it decodes to this text. -/
def FormHolds (body name : List UInt8) (size : Nat) (text : List UInt8) : Prop :=
  ∃ v t, fieldValue name (cstr body) = some v ∧ unescape hexPair v = some t ∧ t.length < size ∧
    cstr t = text

/-- A login form with the right user and the right password, as far as it is read. -/
def RightForm (cfg : PortalCfg) (req : HttpReq) : Prop :=
  ∃ body, readBody (req.form false) bodyMax = some body ∧
    FormHolds body (ascii "u") 64 (cstr cfg.adminUser) ∧
    FormHolds body (ascii "p") 128 (cstr cfg.adminPassword)

/-- A login that hands out a cookie. -/
def LogsIn (cfg : PortalCfg) (p : Portal × PortalEvent) (drawn : Bytes 16) : Prop :=
  ∃ req nowMs, p.2 = .request req drawn nowMs ∧ p.1.serves = true ∧
    cfg.handler req = some .loginPost ∧ p.1.prov.ctx.state = .opened ∧ RightForm cfg req

/-- A logout, another login or the end of the session. -/
def EndsLogin (cfg : PortalCfg) (p : Portal × PortalEvent) : Prop :=
  (∃ req drawn nowMs, p.2 = .request req drawn nowMs ∧ p.1.serves = true ∧
    cfg.handler req = some .logoutGet) ∨
  (∃ drawn, LogsIn cfg p drawn) ∨
  (p.1.prov.ctx.state = .opened ∧ (portalStep cfg p.1 p.2).prov.ctx.state = .closed)

/-- The run has a login with these bytes, and nothing since that ends it. -/
def Issued (cfg : PortalCfg) (events : List PortalEvent) (drawn : Bytes 16) : Prop :=
  ∃ before event since, events = before ++ event :: since ∧
    LogsIn cfg (portalRun cfg before, event) drawn ∧
    ∀ p ∈ trace (portalStep cfg) (portalRun cfg (before ++ [event])) since, ¬EndsLogin cfg p

/-- What only the admin may ask for. -/
def PortalAct.privileged : PortalAct → Bool
  | .reply ⟨.page (.login _ _ _), _⟩ => false
  | .reply ⟨.page _, _⟩ => true
  | .reply _ => false
  | .scan | .tryNetwork _ | .save _ | .staStart | .finish => true

theorem provFormField_holds {body name : List UInt8} {size : Nat} {text : List UInt8}
    (hsize : 0 < size) (hname : 0 ∉ name) (hamp : 38 ∉ name) (hne : name ≠ []) :
    (provFormField body name size).2 = true ∧ cstr (provFormField body name size).1.toList = text ↔
      FormHolds body name size text := by
  rw [provFormField, cstr_eq_self hname, if_neg (by simp [hsize.ne', hne]),
    formScan_eq hname hamp (zero_not_mem_cstr body) le_rfl, FormHolds]
  cases fieldValue name (cstr body) with
  | none => simp
  | some value =>
    simp only [Option.some.injEq, exists_and_left, exists_eq_left']
    rw [provUrlDecode_eq value hsize]
    cases unescape hexPair value with
    | none => simp
    | some t =>
      by_cases ht : t.length < size
      · simp [Option.filter, ht, cstr_fill ht.le]
      · simp [Option.filter, ht]

/-- What `login_post` finds in a form. -/
theorem rightForm_iff (cfg : PortalCfg) (req : HttpReq) :
    RightForm cfg req ↔ ∃ user pass, loginPost (req.form false) = .logins user pass ∧
      cstr user.toList = cstr cfg.adminUser ∧ cstr pass.toList = cstr cfg.adminPassword := by
  have huser : ∀ body text, _ ↔ FormHolds body (ascii "u") 64 text := fun body text =>
    provFormField_holds (by decide) (by decide) (by decide) (by decide)
  have hpass : ∀ body text, _ ↔ FormHolds body (ascii "p") 128 text := fun body text =>
    provFormField_holds (by decide) (by decide) (by decide) (by decide)
  unfold RightForm loginPost
  cases readBody (req.form false) bodyMax with
  | none => simp
  | some body =>
    simp only [Option.some.injEq, exists_eq_left']
    rw [← huser, ← hpass]
    cases hu : (provFormField body (ascii "u") 64).2 with
    | false => simp
    | true =>
      cases hp : (provFormField body (ascii "p") 128).2 with
      | false => simp
      | true => simp

def LoginPost.isLogin : LoginPost → Bool
  | .logins _ _ => true
  | _ => false

/-- What one request does. -/
inductive RequestStep (cfg : PortalCfg) (p : Portal) (req : HttpReq) (drawn : Bytes 16) :
    Portal × List PortalAct → Prop
  | served (acts) : cfg.handler req ≠ some .loginPost → cfg.handler req ≠ some .logoutGet →
      (∀ act ∈ acts, act.privileged = true →
        (act = .scan ∨ ∃ page, act = sendPage page) ∧ p.authenticated req.cookie = true) →
      RequestStep cfg p req drawn (p, acts)
  | loggedIn (reply) : cfg.handler req = some .loginPost → p.prov.ctx.state = .opened →
      RightForm cfg req → (PortalAct.reply reply).privileged = false →
      RequestStep cfg p req drawn
        ({ p.withCtx { p.prov.ctx with authenticated := true, loginFailures := 0 } with
          sid := newSid drawn }, [.reply reply])
  | notLoggedIn (ctx reply) : cfg.handler req = some .loginPost →
      (p.prov.ctx.state = .opened → ¬RightForm cfg req) →
      ctx = p.prov.ctx ∨
        (p.prov.ctx.state = .opened ∧ (loginPost (req.form false)).isLogin = true ∧
          ctx = (provLogin p.prov.ctx false).1) →
      (PortalAct.reply reply).privileged = false →
      RequestStep cfg p req drawn (p.withCtx ctx, [.reply reply])
  | loggedOut (reply) : cfg.handler req = some .logoutGet → (PortalAct.reply reply).privileged = false →
      RequestStep cfg p req drawn
        ({ p.withCtx (provSessionLogout p.prov.ctx) with sid := putByte p.sid 0 0 }, [.reply reply])
  | finished : cfg.handler req = some .finishGet → p.authenticated req.cookie = true →
      RequestStep cfg p req drawn ({ p with prov := { p.prov with finishRequested := true } },
        [sendPage .finished, .finish])
  | tries (creds) : cfg.handler req = some .wifiPost → p.authenticated req.cookie = true →
      wifiPost (req.form true) = .tries creds →
      RequestStep cfg p req drawn
        ({ p with verifying := some (creds, req.cookie) }, [.tryNetwork creds])

theorem wifiPageActs_privileged {p : Portal} {cookie : Option (List UInt8)} {message : List UInt8}
    {act : PortalAct} (h : act ∈ wifiPageActs p cookie message) (hact : act.privileged = true) :
    (act = .scan ∨ ∃ page, act = sendPage page) ∧ p.authenticated cookie = true := by
  unfold wifiPageActs at h
  cases hauth : p.authenticated cookie with
  | false =>
    rw [hauth, if_pos (by simp), List.mem_singleton] at h
    subst h
    cases hact
  | true =>
    rw [hauth, if_neg (by simp), List.mem_cons, List.mem_singleton] at h
    rcases h with rfl | rfl
    · exact ⟨.inl rfl, rfl⟩
    · exact ⟨.inr ⟨_, rfl⟩, rfl⟩

theorem provLogin_wrong_flag (ctx : ProvCtx) : (provLogin ctx false).2 = false := by
  simp only [provLogin, Bool.false_eq_true, if_false]
  split_ifs <;> rfl

theorem loginHandler_step {cfg : PortalCfg} {p : Portal} {req : HttpReq} (drawn : Bytes 16)
    (nowMs : UInt32) (h : cfg.handler req = some .loginPost) :
    RequestStep cfg p req drawn (loginHandler cfg p req drawn nowMs) := by
  -- a login that fails leaves a page or nothing, whichever way it fails
  have failed : ∀ ctx, (p.prov.ctx.state = .opened → ¬RightForm cfg req) →
      ctx = p.prov.ctx ∨
        (p.prov.ctx.state = .opened ∧ (loginPost (req.form false)).isLogin = true ∧
          ctx = (provLogin p.prov.ctx false).1) →
      RequestStep cfg p req drawn
        (if !provIsOpen ctx then (p.withCtx ctx, [.reply ⟨.fail, none⟩])
        else (p.withCtx ctx, [loginPage (p.withCtx ctx) nowMs
          (ascii "<p class=\"err\">Usuario ou senha incorretos.</p>")])) := by
    intro ctx hform hctx
    split
    next => exact .notLoggedIn ctx _ h hform hctx rfl
    next => exact .notLoggedIn ctx _ h hform hctx rfl
  unfold loginHandler
  cases hpost : loginPost (req.form false) with
  | invalid =>
    have hform : ¬RightForm cfg req := by
      rw [rightForm_iff]
      simp [hpost]
    exact .notLoggedIn p.prov.ctx _ h (fun _ => hform) (.inl rfl) rfl
  | refused =>
    have hform : ¬RightForm cfg req := by
      rw [rightForm_iff]
      simp [hpost]
    exact failed p.prov.ctx (fun _ => hform) (.inl rfl)
  | logins user pass =>
    have hform : RightForm cfg req ↔
        cstr user.toList = cstr cfg.adminUser ∧ cstr pass.toList = cstr cfg.adminPassword := by
      rw [rightForm_iff]
      simp [hpost]
    by_cases hs : p.prov.ctx.state = .opened
    · by_cases hright : cstr user.toList = cstr cfg.adminUser ∧ cstr pass.toList = cstr cfg.adminPassword
      · have hlogin : provSessionLogin cfg p.prov.ctx user.toList pass.toList =
            ({ p.prov.ctx with authenticated := true, loginFailures := 0 }, true) := by
          rw [provSessionLogin_eq, decide_eq_true hright, provLogin, if_neg (not_not.mpr hs), if_pos rfl]
        simp only [hlogin, Bool.not_true, Bool.false_eq_true, if_false]
        exact .loggedIn ⟨.redirect rootPath, some (sidCookie (newSid drawn))⟩ h hs (hform.mpr hright) rfl
      · have hlogin : provSessionLogin cfg p.prov.ctx user.toList pass.toList =
            ((provLogin p.prov.ctx false).1, false) := by
          rw [provSessionLogin_eq, decide_eq_false hright]
          exact Prod.ext rfl (provLogin_wrong_flag _)
        simp only [hlogin, Bool.not_false, if_true]
        exact failed _ (fun _ hr => hright (hform.mp hr)) (.inr ⟨hs, by rw [hpost]; rfl, rfl⟩)
    · have hlogin : provSessionLogin cfg p.prov.ctx user.toList pass.toList = (p.prov.ctx, false) := by
        rw [provSessionLogin_eq, provLogin, if_pos hs]
      simp only [hlogin, Bool.not_false, if_true]
      exact failed _ (fun h => absurd h hs) (.inl rfl)

theorem handleRequest_step (cfg : PortalCfg) (p : Portal) (req : HttpReq) (drawn : Bytes 16)
    (nowMs : UInt32) : RequestStep cfg p req drawn (handleRequest cfg p req drawn nowMs) := by
  unfold handleRequest
  cases hroute : cfg.handler req with
  | none => exact .served [] (by simp [hroute]) (by simp [hroute]) (by simp)
  | some handler =>
    cases handler with
    | loginPost => exact loginHandler_step drawn nowMs hroute
    | logoutGet => exact .loggedOut _ hroute rfl
    | rootGet =>
      refine .served _ (by simp [hroute]) (by simp [hroute]) fun act hact hpriv => ?_
      unfold rootGet at hact
      cases hauth : p.authenticated req.cookie with
      | true =>
        rw [hauth, if_pos rfl, List.mem_singleton] at hact
        exact ⟨.inr ⟨_, hact⟩, rfl⟩
      | false =>
        rw [hauth, if_neg (by simp), List.mem_singleton] at hact
        subst hact
        cases hpriv
    | finishGet =>
      simp only [finishGet]
      cases hauth : p.authenticated req.cookie with
      | true => exact .finished hroute hauth
      | false =>
        exact .served [redirect rootPath] (by simp [hroute]) (by simp [hroute])
          (by simp [redirect, PortalAct.privileged])
    | wifiGet =>
      exact .served _ (by simp [hroute]) (by simp [hroute]) fun act hact hpriv =>
        wifiPageActs_privileged hact hpriv
    | wifiPost =>
      simp only [wifiPostHandler]
      split
      next =>
        exact .served [redirect rootPath] (by simp [hroute]) (by simp [hroute])
          (by simp [redirect, PortalAct.privileged])
      next =>
        exact .served _ (by simp [hroute]) (by simp [hroute]) fun act hact hpriv =>
          wifiPageActs_privileged hact hpriv
      next creds htries =>
        have hauth : p.authenticated req.cookie = true := by
          by_contra hout
          rw [wifiPost, if_pos (by simpa [HttpReq.form] using hout)] at htries
          cases htries
        rw [hauth] at htries
        exact .tries creds hroute hauth htries
    | consoleGet =>
      refine .served _ (by simp [hroute]) (by simp [hroute]) fun act hact hpriv => ?_
      unfold consoleGet at hact
      cases hauth : p.authenticated req.cookie with
      | true =>
        rw [hauth, if_neg (by simp), List.mem_singleton] at hact
        exact ⟨.inr ⟨_, hact⟩, rfl⟩
      | false =>
        rw [hauth, if_pos (by simp), List.mem_singleton] at hact
        subst hact
        cases hpriv
    | catchAll =>
      exact .served catchAll (by simp [hroute]) (by simp [hroute])
        (by simp [catchAll, redirect, PortalAct.privileged])

theorem provButton_session {ctx : ProvCtx} (h : ctx.state = .opened) (down : Bool) (nowMs : UInt32) :
    (provButton ctx down nowMs).2 = .none ∧ (provButton ctx down nowMs).1.state = .opened ∧
      (provButton ctx down nowMs).1.authenticated = ctx.authenticated ∧
      (provButton ctx down nowMs).1.openedMs = ctx.openedMs ∧
      (provButton ctx down nowMs).1.loginFailures = ctx.loginFailures := by
  unfold provButton
  split_ifs <;> simp_all

theorem provButton_shut {ctx : ProvCtx} (h : ctx.state = .closed) (down : Bool) (nowMs : UInt32) :
    ((provButton ctx down nowMs).2 = .none ∧ (provButton ctx down nowMs).1.state = .closed) ∨
      ((provButton ctx down nowMs).2 = .openAp ∧
        (provButton ctx down nowMs).1.authenticated = false) := by
  unfold provButton
  split_ifs <;> simp_all

/-- A tick that finds no session leaves nobody logged in. -/
theorem portalPoll_shut {p : Portal} (h : p.prov.ctx.state = .closed) (down : Bool)
    (start : ApStart) (nowMs : UInt32) :
    provIsAuthenticated (portalPoll p down start nowMs).prov.ctx = false := by
  have hshut : ∀ ctx : ProvCtx, ctx.state = .closed → provIsAuthenticated ctx = false := by
    intro ctx hctx
    simp [provIsAuthenticated, provIsOpen, hctx]
  unfold portalPoll
  rcases provButton_shut h down nowMs with ⟨hnone, hclosed⟩ | ⟨hopen, hauth⟩
  · have htick : provTick (provButton p.prov.ctx down nowMs).1 nowMs =
        ((provButton p.prov.ctx down nowMs).1, .none) := by
      rw [provTick, if_pos (by simp [hclosed])]
    simp only [hnone, if_true, htick]
    exact hshut _ hclosed
  · have hkeep := (portalStart_prov (p.withCtx (provButton p.prov.ctx down nowMs).1) start).1
    simp only [hopen, reduceCtorEq, if_false]
    split
    next =>
      rw [hkeep, (provApStart_cases _ start).2]
      simp [provIsAuthenticated, Portal.withCtx, hauth]
    next => exact hshut _ (closeSession_closed _)

/-- A tick that finds a session leaves it and its login as they are, or ends it because its time has
run. -/
theorem portalPoll_open {p : Portal} (h : p.prov.ctx.state = .opened) (down : Bool)
    (start : ApStart) (nowMs : UInt32) :
    ((portalPoll p down start nowMs).prov.ctx.state = .opened ∧
      (portalPoll p down start nowMs).prov.ctx.authenticated = p.prov.ctx.authenticated ∧
      (portalPoll p down start nowMs).sid = p.sid ∧
      (portalPoll p down start nowMs).prov.ctx.openedMs = p.prov.ctx.openedMs ∧
      (portalPoll p down start nowMs).prov.ctx.loginFailures = p.prov.ctx.loginFailures) ∨
    ((portalPoll p down start nowMs).prov.ctx.state = .closed ∧
      provSessionMs ≤ nowMs - p.prov.ctx.openedMs) := by
  obtain ⟨hnone, hopen, hauth, hsince, hfailures⟩ := provButton_session h down nowMs
  have htick : provTick (provButton p.prov.ctx down nowMs).1 nowMs =
      if nowMs - p.prov.ctx.openedMs ≥ provSessionMs then
        closeSession (provButton p.prov.ctx down nowMs).1
      else ((provButton p.prov.ctx down nowMs).1, .none) := by
    rw [provTick, if_neg (not_not.mpr hopen), hsince]
  unfold portalPoll
  simp only [hnone, if_true, htick]
  by_cases hover : nowMs - p.prov.ctx.openedMs ≥ provSessionMs
  · have hact : (closeSession (provButton p.prov.ctx down nowMs).1).2 = .closeAp := by
      rw [closeSession, if_neg (not_not.mpr hopen)]
    simp only [if_pos hover, hact]
    refine .inr ⟨?_, hover⟩
    rw [Portal.unnamed, portalStop_prov]
    exact closeSession_closed _
  · simp only [if_neg hover]
    exact .inl ⟨hopen, hauth, rfl, hsince, hfailures⟩

theorem not_authenticated_shut {ctx : ProvCtx} (h : ctx.state = .closed) :
    provIsAuthenticated ctx = false := by
  simp [provIsAuthenticated, provIsOpen, h]

/-- What one event does to the login: it hands out a new one, ends it or leaves it. -/
inductive LoginMove (cfg : PortalCfg) (p : Portal) (event : PortalEvent) : Portal → Prop
  | loggedIn (next drawn) : LogsIn cfg (p, event) drawn →
      provIsAuthenticated next.prov.ctx = true → next.sid = newSid drawn → LoginMove cfg p event next
  | out (next) : (∀ drawn, ¬LogsIn cfg (p, event) drawn) →
      (provIsAuthenticated p.prov.ctx = true → EndsLogin cfg (p, event)) →
      provIsAuthenticated next.prov.ctx = false → LoginMove cfg p event next
  | kept (next) : ¬EndsLogin cfg (p, event) →
      provIsAuthenticated next.prov.ctx = provIsAuthenticated p.prov.ctx →
      (provIsAuthenticated p.prov.ctx = true → next.sid = p.sid) → LoginMove cfg p event next

theorem provIsAuthenticated_iff {ctx : ProvCtx} :
    provIsAuthenticated ctx = true ↔ ctx.state = .opened ∧ ctx.authenticated = true := by
  simp [provIsAuthenticated, provIsOpen]

theorem portalTick_move (cfg : PortalCfg) (p : Portal) (down : Bool) (start : ApStart)
    (nowMs : UInt32) :
    LoginMove cfg p (.tick down start nowMs) (portalStep cfg p (.tick down start nowMs)) := by
  have hnone : ∀ drawn, ¬LogsIn cfg (p, .tick down start nowMs) drawn := by
    rintro drawn ⟨req, now, hcall, -⟩
    cases hcall
  have hends : p.prov.ctx.state = .opened →
      (portalStep cfg p (.tick down start nowMs)).prov.ctx.state = .closed →
      EndsLogin cfg (p, .tick down start nowMs) := fun hopen hclosed => .inr (.inr ⟨hopen, hclosed⟩)
  have hkeeps : (portalStep cfg p (.tick down start nowMs)).prov.ctx.state = .opened →
      ¬EndsLogin cfg (p, .tick down start nowMs) := by
    rintro hopen (⟨_, _, _, hcall, -⟩ | ⟨drawn, hlogs⟩ | ⟨-, hclosed⟩)
    · cases hcall
    · exact hnone drawn hlogs
    · rw [hopen] at hclosed
      cases hclosed
  -- the part after a finish request, on a portal with the same session
  have hpoll : ∀ q : Portal, q.prov.ctx = p.prov.ctx → q.sid = p.sid →
      portalStep cfg p (.tick down start nowMs) = portalPoll q down start nowMs →
      LoginMove cfg p (.tick down start nowMs) (portalStep cfg p (.tick down start nowMs)) := by
    intro q hctx hsid hstep
    cases hs : p.prov.ctx.state with
    | closed =>
      refine .out _ hnone (fun hauth => ?_) ?_
      · rw [not_authenticated_shut hs] at hauth
        cases hauth
      · rw [hstep]
        exact portalPoll_shut (by rw [hctx, hs]) down start nowMs
    | opened =>
      rcases portalPoll_open (p := q) (by rw [hctx, hs]) down start nowMs with
        ⟨hopen, hauth, hsame, -⟩ | ⟨hclosed, -⟩
      · rw [← hstep] at hopen hauth hsame
        refine .kept _ (hkeeps hopen) ?_ fun _ => hsame.trans hsid
        rw [provIsAuthenticated, provIsAuthenticated, provIsOpen, provIsOpen, hopen, hauth, hctx, hs]
      · rw [← hstep] at hclosed
        exact .out _ hnone (fun _ => hends hs hclosed) (not_authenticated_shut hclosed)
  have hstep : portalStep cfg p (.tick down start nowMs) = portalTick p down start nowMs := rfl
  rw [portalTick] at hstep
  by_cases hflag : p.prov.finishRequested = true
  · rw [if_pos hflag] at hstep
    by_cases hs : p.prov.ctx.state = .opened
    · have hact : (provClose p.prov.ctx).2 = .closeAp := by
        rw [provClose, closeSession, if_neg (not_not.mpr hs)]
      simp only [hact, if_true] at hstep
      have hclosed : (portalStep cfg p (.tick down start nowMs)).prov.ctx.state = .closed := by
        rw [hstep, Portal.unnamed, portalStop_prov]
        exact closeSession_closed p.prov.ctx
      exact .out _ hnone (fun _ => hends hs hclosed) (not_authenticated_shut hclosed)
    · have hact : provClose p.prov.ctx = (p.prov.ctx, .none) := by
        rw [provClose, closeSession, if_pos hs]
      simp only [hact, reduceCtorEq, if_false] at hstep
      exact hpoll { p with prov := { p.prov with finishRequested := false } } rfl rfl hstep
  · rw [if_neg hflag] at hstep
    exact hpoll p rfl rfl hstep

/-- A request that is no login and no logout, or is not served, leaves the login. -/
theorem request_kept {cfg : PortalCfg} {p : Portal} {req : HttpReq} {drawn : Bytes 16}
    {nowMs : UInt32}
    (hout : p.serves = true → cfg.handler req ≠ some .logoutGet)
    (hin : p.serves = true → cfg.handler req = some .loginPost → p.prov.ctx.state = .opened →
      ¬RightForm cfg req)
    (hstate : (portalStep cfg p (.request req drawn nowMs)).prov.ctx.state = p.prov.ctx.state)
    (hauth : (portalStep cfg p (.request req drawn nowMs)).prov.ctx.authenticated =
      p.prov.ctx.authenticated)
    (hsid : (portalStep cfg p (.request req drawn nowMs)).sid = p.sid) :
    LoginMove cfg p (.request req drawn nowMs) (portalStep cfg p (.request req drawn nowMs)) := by
  refine .kept _ ?_ ?_ fun _ => hsid
  · rintro (⟨req', _, _, hcall, hserves, hroute⟩ | ⟨_, req', _, hcall, hserves, hroute, hopen, hright⟩ |
      ⟨hopen, hclosed⟩)
    · cases hcall
      exact hout hserves hroute
    · cases hcall
      exact hin hserves hroute hopen hright
    · rw [hstate] at hclosed
      exact absurd (hopen.symm.trans hclosed) (by simp)
  · simp only [provIsAuthenticated, provIsOpen, hstate, hauth]

theorem request_move (cfg : PortalCfg) (p : Portal) (req : HttpReq) (drawn : Bytes 16)
    (nowMs : UInt32) :
    LoginMove cfg p (.request req drawn nowMs) (portalStep cfg p (.request req drawn nowMs)) := by
  by_cases hserves : p.serves = true
  · have hstep : portalStep cfg p (.request req drawn nowMs) =
        (handleRequest cfg p req drawn nowMs).1 := by
      rw [portalStep, portalCall, if_pos hserves]
    have hs := handleRequest_step cfg p req drawn nowMs
    generalize handleRequest cfg p req drawn nowMs = out at hs hstep
    have hother : cfg.handler req ≠ some .loginPost → cfg.handler req ≠ some .logoutGet →
        out.1.prov.ctx = p.prov.ctx → out.1.sid = p.sid →
        LoginMove cfg p (.request req drawn nowMs) (portalStep cfg p (.request req drawn nowMs)) := by
      intro hlogin hlogout hctx hsid
      refine request_kept (fun _ => hlogout) (fun _ h => absurd h hlogin) ?_ ?_ (by rw [hstep, hsid])
      · rw [hstep, hctx]
      · rw [hstep, hctx]
    cases hs with
    | served acts hlogin hlogout => exact hother hlogin hlogout rfl rfl
    | finished hroute => exact hother (by simp [hroute]) (by simp [hroute]) rfl rfl
    | tries creds hroute => exact hother (by simp [hroute]) (by simp [hroute]) rfl rfl
    | loggedIn reply hroute hopen hright =>
      refine .loggedIn _ drawn ⟨req, nowMs, rfl, hserves, hroute, hopen, hright⟩ ?_ (by rw [hstep])
      rw [hstep, provIsAuthenticated_iff]
      exact ⟨hopen, rfl⟩
    | loggedOut reply hroute =>
      refine .out _ ?_ (fun _ => .inl ⟨req, drawn, nowMs, rfl, hserves, hroute⟩) ?_
      · rintro drawn' ⟨req', _, hcall, -, hlogin, -⟩
        cases hcall
        rw [hroute] at hlogin
        cases hlogin
      · rw [hstep, Bool.eq_false_iff]
        intro hauth
        obtain ⟨hopen, hflag⟩ := provIsAuthenticated_iff.mp hauth
        simp only [Portal.withCtx, provSessionLogout] at hopen hflag
        split_ifs at hopen hflag with hwas
        exact hwas (by simpa [provIsOpen] using hopen)
    | notLoggedIn ctx reply hroute hwrong hctx =>
      have hkept : ctx.state = p.prov.ctx.state → ctx.authenticated = p.prov.ctx.authenticated →
          LoginMove cfg p (.request req drawn nowMs) (portalStep cfg p (.request req drawn nowMs)) := by
        intro hstate hauth
        refine request_kept (fun _ => by simp [hroute]) (fun _ _ => hwrong) ?_ ?_ (by rw [hstep]; rfl)
        · rw [hstep]
          exact hstate
        · rw [hstep]
          exact hauth
      rcases hctx with rfl | ⟨hopen, -, rfl⟩
      · exact hkept rfl rfl
      · rcases provLogin_wrong hopen with ⟨-, hclosed⟩ | ⟨-, -, hnext⟩
        · refine .out _ ?_ (fun _ => .inr (.inr ⟨hopen, ?_⟩)) ?_
          · rintro drawn' ⟨req', _, hcall, -, -, -, hright⟩
            cases hcall
            exact hwrong hopen hright
          · rw [hstep]
            exact hclosed
          · rw [hstep]
            exact not_authenticated_shut hclosed
        · rw [hnext] at hkept
          exact hkept rfl rfl
  · have hstep : portalStep cfg p (.request req drawn nowMs) = p := by
      rw [portalStep, portalCall, if_neg hserves]
    refine request_kept (fun h => absurd h hserves) (fun h => absurd h hserves) ?_ ?_ ?_
    all_goals rw [hstep]

theorem portalCall_move (cfg : PortalCfg) (p : Portal) (event : PortalEvent) :
    LoginMove cfg p event (portalStep cfg p event) := by
  cases event with
  | tick down start nowMs => exact portalTick_move cfg p down start nowMs
  | verified joined err =>
    have hsame : (portalStep cfg p (.verified joined err)).prov = p.prov ∧
        (portalStep cfg p (.verified joined err)).sid = p.sid := by
      simp only [portalStep, portalCall, wifiPostVerified]
      split
      next => exact ⟨rfl, rfl⟩
      next => split_ifs <;> exact ⟨rfl, rfl⟩
    refine .kept _ ?_ (by rw [hsame.1]) fun _ => hsame.2
    rintro (⟨_, _, _, hcall, -⟩ | ⟨_, _, _, hcall, -⟩ | ⟨hopen, hclosed⟩)
    · cases hcall
    · cases hcall
    · rw [hsame.1] at hclosed
      rw [hopen] at hclosed
      cases hclosed
  | request req drawn nowMs => exact request_move cfg p req drawn nowMs

theorem LogsIn.endsLogin {cfg : PortalCfg} {p : Portal × PortalEvent} {drawn : Bytes 16}
    (h : LogsIn cfg p drawn) : EndsLogin cfg p := .inr (.inl ⟨drawn, h⟩)

/-- Who is logged in holds the bytes of the last login. -/
theorem Issued.current {cfg : PortalCfg} {events : List PortalEvent} {drawn : Bytes 16}
    (h : Issued cfg events drawn) :
    provIsAuthenticated (portalRun cfg events).prov.ctx = true ∧
      (portalRun cfg events).sid = newSid drawn := by
  obtain ⟨before, event, since, rfl, hlogs, hsince⟩ := h
  induction since using List.reverseRecOn with
  | nil =>
    rw [portalRun, exec_concat]
    have hmove := portalCall_move cfg (portalRun cfg before) event
    generalize portalStep cfg (portalRun cfg before) event = next at hmove ⊢
    cases hmove with
    | loggedIn drawn' hlogs' hauth hsid =>
      obtain ⟨_, _, hcall, -⟩ := hlogs
      obtain ⟨_, _, hcall', -⟩ := hlogs'
      simp only at hcall hcall'
      obtain ⟨-, rfl, -⟩ := PortalEvent.request.inj (hcall.symm.trans hcall')
      exact ⟨hauth, hsid⟩
    | out hnone => exact absurd hlogs (hnone drawn)
    | kept hends => exact absurd hlogs.endsLogin hends
  | append_singleton since last ih =>
    simp only [trace_concat, List.mem_append, List.mem_singleton, or_imp, forall_and, forall_eq]
      at hsince
    obtain ⟨hauth, hsid⟩ := ih hsince.1
    have hlast := hsince.2
    rw [← exec_append, List.append_assoc, List.singleton_append] at hlast
    rw [← List.cons_append, ← List.append_assoc, portalRun, exec_concat]
    have hmove := portalCall_move cfg (portalRun cfg (before ++ event :: since)) last
    generalize portalStep cfg (portalRun cfg (before ++ event :: since)) last = next at hmove ⊢
    cases hmove with
    | loggedIn _ hlogs' => exact absurd hlogs'.endsLogin hlast
    | out _ hends => exact absurd (hends hauth) hlast
    | kept _ hsame hkept => exact ⟨hsame.trans hauth, (hkept hauth).trans hsid⟩

/-- Nobody is logged in but by a login that nothing has ended. -/
theorem issued_of_authenticated {cfg : PortalCfg} {events : List PortalEvent}
    (h : provIsAuthenticated (portalRun cfg events).prov.ctx = true) :
    ∃ drawn, Issued cfg events drawn := by
  induction events using List.reverseRecOn with
  | nil => cases h
  | append_singleton events event ih =>
    rw [portalRun, exec_concat] at h
    have hmove := portalCall_move cfg (portalRun cfg events) event
    generalize portalStep cfg (portalRun cfg events) event = next at hmove h
    cases hmove with
    | loggedIn drawn hlogs => exact ⟨drawn, events, event, [], rfl, hlogs, by simp⟩
    | out _ _ hout =>
      rw [hout] at h
      cases h
    | kept hends hsame =>
      obtain ⟨drawn, before, first, since, rfl, hlogs, hsince⟩ := ih (hsame ▸ h)
      refine ⟨drawn, before, first, since ++ [event], by simp, hlogs, ?_⟩
      simp only [trace_concat, List.mem_append, List.mem_singleton, or_imp, forall_and, forall_eq]
      refine ⟨hsince, ?_⟩
      rw [← exec_append, List.append_assoc, List.singleton_append]
      exact hends

theorem issued_presented {cfg : PortalCfg} {events : List PortalEvent} {cookie : Option (List UInt8)}
    (h : (portalRun cfg events).authenticated cookie = true) :
    ∃ drawn, Issued cfg events drawn ∧ Presents cookie (hexText drawn.toList) := by
  have hauth : provIsAuthenticated (portalRun cfg events).prov.ctx = true := by
    by_contra hout
    have hfalse : (portalRun cfg events).authenticated cookie = false := by
      unfold Portal.authenticated requestIsAuthenticated
      rw [if_pos (by simp [hout])]
    rw [hfalse] at h
    cases h
  obtain ⟨drawn, hissued⟩ := issued_of_authenticated hauth
  rw [Portal.authenticated, hissued.current.2, requestIsAuthenticated_iff] at h
  exact ⟨drawn, hissued, h.2⟩

/-- After any run a request counts as the admin's exactly when it presents the sid of a login with
the right form, made in the present session and ended by nothing since. -/
theorem request_authenticated_iff (cfg : PortalCfg) (events : List PortalEvent)
    (cookie : Option (List UInt8)) :
    (portalRun cfg events).authenticated cookie = true ↔
      ∃ drawn, Issued cfg events drawn ∧ Presents cookie (hexText drawn.toList) := by
  refine ⟨issued_presented, ?_⟩
  rintro ⟨drawn, hissued, hpresents⟩
  obtain ⟨hauth, hsid⟩ := hissued.current
  rw [Portal.authenticated, hsid, requestIsAuthenticated_iff]
  exact ⟨hauth, hpresents⟩

end GateAccess
