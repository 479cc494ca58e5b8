import GateAccess.PortalSession
import GateAccess.SplitForm
import GateAccess.WifiPage
import GateAccess.WifiProv

namespace GateAccess

inductive HttpMethod
  | get
  | post
  deriving DecidableEq

/-- A request as its handler sees it; `delivered` is what the one `httpd_req_recv` call delivers. -/
structure HttpReq where
  method : HttpMethod
  path : List UInt8
  cookie : Option (List UInt8)
  posted : List UInt8
  delivered : Nat

def HttpReq.form (req : HttpReq) (authenticated : Bool) : HttpPost :=
  ⟨authenticated, req.posted, req.delivered⟩

inductive HttpHandler
  | rootGet
  | loginPost
  | logoutGet
  | finishGet
  | wifiGet
  | wifiPost
  | consoleGet
  | catchAll
  deriving DecidableEq

/-- The routes in the order they are registered: the wildcards come last. -/
def routes : List (List UInt8 × HttpMethod × HttpHandler) :=
  [(ascii "/", .get, .rootGet),
   (ascii "/login", .post, .loginPost),
   (ascii "/logout", .get, .logoutGet),
   (ascii "/finish", .get, .finishGet),
   (ascii "/wifi", .get, .wifiGet),
   (ascii "/wifi", .post, .wifiPost),
   (ascii "/console", .get, .consoleGet),
   (ascii "/*", .get, .catchAll),
   (ascii "/*", .post, .catchAll)]

/-- The handler of the first route that matches. -/
def PortalCfg.handler (cfg : PortalCfg) (req : HttpReq) : Option HttpHandler :=
  (routes.find? fun r => cfg.uriMatch r.1 req.path && r.2.1 = req.method).map fun r => r.2.2

inductive PortalPage
  | login (ssid : List UInt8) (secondsLeft : UInt32) (error : List UInt8)
  | home (secondsLeft : UInt32)
  | wifi (message : List UInt8)
  | console
  | finished
  deriving DecidableEq

inductive HttpAnswer
  | page (page : PortalPage)
  | redirect (location : List UInt8)
  | fail
  deriving DecidableEq

structure HttpReply where
  answer : HttpAnswer
  setCookie : Option (List UInt8)
  deriving DecidableEq

/-- What a handler does, in order. -/
inductive PortalAct
  | reply (r : HttpReply)
  | scan
  | tryNetwork (creds : ProvCreds)
  | save (creds : ProvCreds)
  | staStart
  | finish
  deriving DecidableEq

/-- The portal with its web server, which runs while the soft AP does; `verifying` is the form for
which `wifi_post` is waiting on the radio, with the cookie of its request. -/
structure Portal where
  prov : WifiProv
  sid : Sid
  verifying : Option (ProvCreds × Option (List UInt8))

def portalInit : Portal := ⟨wifiProvInit, zeros _, none⟩

def Portal.authenticated (p : Portal) (cookie : Option (List UInt8)) : Bool :=
  requestIsAuthenticated p.prov.ctx p.sid cookie

def Portal.withCtx (p : Portal) (ctx : ProvCtx) : Portal := { p with prov := { p.prov with ctx := ctx } }

def sendPage (page : PortalPage) : PortalAct := .reply ⟨.page page, none⟩

def redirect (location : List UInt8) : PortalAct := .reply ⟨.redirect location, none⟩

def rootPath : List UInt8 := ascii "/"

def loginPage (p : Portal) (nowMs : UInt32) (error : List UInt8) : PortalAct :=
  sendPage (.login p.prov.ssid (provSecondsLeft p.prov.ctx nowMs) error)

def homePage (p : Portal) (nowMs : UInt32) : PortalAct :=
  sendPage (.home (provSecondsLeft p.prov.ctx nowMs))

def rootGet (p : Portal) (req : HttpReq) (nowMs : UInt32) : List PortalAct :=
  if p.authenticated req.cookie then [homePage p nowMs] else [loginPage p nowMs []]

/-- The cookie that `login_post` sets. -/
def sidCookie (sid : Sid) : List UInt8 :=
  cstr (snprintf 96 (ascii "sid=" ++ cstr sid.toList ++
    ascii "; Path=/; HttpOnly; SameSite=Strict")).toList

/-- `login_post`, with the bytes that `new_sid` would draw. -/
def loginHandler (cfg : PortalCfg) (p : Portal) (req : HttpReq) (drawn : Bytes 16) (nowMs : UInt32) :
    Portal × List PortalAct :=
  let tries (tried : ProvCtx × Bool) : Portal × List PortalAct :=
    let p := p.withCtx tried.1
    if !tried.2 then
      if !provIsOpen p.prov.ctx then (p, [.reply ⟨.fail, none⟩])
      else (p, [loginPage p nowMs (ascii "<p class=\"err\">Usuario ou senha incorretos.</p>")])
    else
      let p := { p with sid := newSid drawn }
      (p, [.reply ⟨.redirect rootPath, some (sidCookie p.sid)⟩])
  match loginPost (req.form false) with
  | .invalid => (p, [loginPage p nowMs (ascii "<p class=\"err\">Formulario invalido.</p>")])
  | .refused => tries (p.prov.ctx, false)
  | .logins user pass => tries (provSessionLogin cfg p.prov.ctx user.toList pass.toList)

def logoutGet (p : Portal) : Portal × List PortalAct :=
  let p := p.withCtx (provSessionLogout p.prov.ctx)
  ({ p with sid := putByte p.sid 0 0 },
    [.reply ⟨.redirect rootPath, some (ascii "sid=; Path=/; Max-Age=0")⟩])

def finishGet (p : Portal) (req : HttpReq) : Portal × List PortalAct :=
  if !p.authenticated req.cookie then (p, [redirect rootPath])
  else
    ({ p with prov := { p.prov with finishRequested := true } }, [sendPage .finished, .finish])

/-- `wifi_page`, which checks the request once more. -/
def wifiPageActs (p : Portal) (cookie : Option (List UInt8)) (message : List UInt8) :
    List PortalAct :=
  if !p.authenticated cookie then [redirect rootPath] else [.scan, sendPage (.wifi message)]

/-- `wifi_post`, up to where it waits on the radio. -/
def wifiPostHandler (p : Portal) (req : HttpReq) : Portal × List PortalAct :=
  match wifiPost (req.form (p.authenticated req.cookie)) with
  | .redirect => (p, [redirect rootPath])
  | .page message => (p, wifiPageActs p req.cookie message)
  | .tries creds => ({ p with verifying := some (creds, req.cookie) }, [.tryNetwork creds])

/-- The name as the page prints it. -/
def ProvCreds.name (creds : ProvCreds) : Ssid where
  bytes := (cstr creds.ssid.toList).take provNvsSsidMax
  short := List.length_take_le _ _
  plain h := zero_not_mem_cstr _ (List.mem_of_mem_take h)

/-- The rest of `wifi_post`: whether the network took the credentials, and what `prov_nvs_save`
answers. -/
def wifiPostVerified (p : Portal) (joined : Bool) (err : UInt32) : Portal × List PortalAct :=
  match p.verifying with
  | none => (p, [])
  | some (creds, cookie) =>
    let p := { p with verifying := none }
    if !joined then (p, wifiPageActs p cookie (WifiMessage.notJoined creds.name).text)
    else if err = 0 then
      (p, .save creds :: .staStart :: wifiPageActs p cookie (WifiMessage.saved creds.name).text)
    else (p, .save creds :: wifiPageActs p cookie (WifiMessage.notSaved err).text)

def consoleGet (p : Portal) (req : HttpReq) : List PortalAct :=
  if !p.authenticated req.cookie then [redirect rootPath] else [sendPage .console]

def catchAll : List PortalAct := [redirect (ascii "http://192.168.4.1/")]

def handleRequest (cfg : PortalCfg) (p : Portal) (req : HttpReq) (drawn : Bytes 16)
    (nowMs : UInt32) : Portal × List PortalAct :=
  match cfg.handler req with
  | some .rootGet => (p, rootGet p req nowMs)
  | some .loginPost => loginHandler cfg p req drawn nowMs
  | some .logoutGet => logoutGet p
  | some .finishGet => finishGet p req
  | some .wifiGet => (p, wifiPageActs p req.cookie [])
  | some .wifiPost => wifiPostHandler p req
  | some .consoleGet => (p, consoleGet p req)
  | some .catchAll => (p, catchAll)
  | none => (p, [])

/-- `prov_http_start` on a server that is not running. -/
def provHttpStart (sid : Sid) : Sid := putByte sid 0 0

def provHttpStop : Sid := zeros _

/-- `prov_ap_start`, with the sid. -/
def portalStart (p : Portal) (start : ApStart) : Portal × Bool :=
  if p.prov.running then (p, true)
  else
    match start.linkUp with
    | none => (p, false)
    | some ssid =>
      let p := { p with prov := { p.prov with ssid := ssid }, sid := provHttpStart p.sid }
      if start.httpStarts then ({ p with prov := { p.prov with running := true } }, true)
      else (p, false)

/-- `prov_ap_stop`, with the sid. -/
def portalStop (p : Portal) : Portal :=
  if !p.prov.running then p
  else { p with prov := { p.prov with running := false }, sid := provHttpStop }

def Portal.unnamed (p : Portal) : Portal := { p with prov := { p.prov with ssid := [] } }

/-- The part of `wifi_prov_tick` after the finish request, with the sid. -/
def portalPoll (p : Portal) (down : Bool) (start : ApStart) (nowMs : UInt32) : Portal :=
  let pressed := provButton p.prov.ctx down nowMs
  let acted := if pressed.2 = .none then provTick pressed.1 nowMs else pressed
  let p := p.withCtx acted.1
  match acted.2 with
  | .openAp =>
    let started := portalStart p start
    if started.2 then started.1
    else (started.1.withCtx (provClose started.1.prov.ctx).1).unnamed
  | .closeAp => (portalStop p).unnamed
  | .none => p

/-- `wifi_prov_tick`, with the sid. -/
def portalTick (p : Portal) (down : Bool) (start : ApStart) (nowMs : UInt32) : Portal :=
  if p.prov.finishRequested then
    let closed := provClose p.prov.ctx
    let p := { p with prov := { p.prov with finishRequested := false, ctx := closed.1 } }
    if closed.2 = .closeAp then (portalStop p).unnamed else portalPoll p down start nowMs
  else portalPoll p down start nowMs

/-- A tick of the main loop, a request, or the radio's answer to the form that waits for it. A server
that is stopped or waiting handles no request. -/
inductive PortalEvent
  | tick (down : Bool) (start : ApStart) (nowMs : UInt32)
  | request (req : HttpReq) (drawn : Bytes 16) (nowMs : UInt32)
  | verified (joined : Bool) (err : UInt32)

def Portal.serves (p : Portal) : Bool := p.prov.running && p.verifying.isNone

def portalCall (cfg : PortalCfg) (p : Portal) : PortalEvent → Portal × List PortalAct
  | .tick down start nowMs => (portalTick p down start nowMs, [])
  | .request req drawn nowMs =>
    if p.serves then handleRequest cfg p req drawn nowMs else (p, [])
  | .verified joined err => wifiPostVerified p joined err

def portalStep (cfg : PortalCfg) (p : Portal) (event : PortalEvent) : Portal :=
  (portalCall cfg p event).1

abbrev portalRun (cfg : PortalCfg) (events : List PortalEvent) : Portal :=
  exec (portalStep cfg) portalInit events

section

variable (p : Portal) (start : ApStart) (down : Bool) (nowMs : UInt32)

theorem portalStart_prov :
    (portalStart p start).1.prov = (provApStart p.prov start).1 ∧
      (portalStart p start).2 = (provApStart p.prov start).2 := by
  unfold portalStart provApStart
  split
  next => exact ⟨rfl, rfl⟩
  next =>
    cases start.linkUp with
    | none => exact ⟨rfl, rfl⟩
    | some ssid => cases start.httpStarts <;> exact ⟨rfl, rfl⟩

theorem portalStop_prov : (portalStop p).prov = provApStop p.prov := by
  unfold portalStop provApStop
  split
  next hdown =>
    have : p.prov.running = false := by simpa using hdown
    rw [← this]
  next => rfl

theorem portalPoll_prov :
    (portalPoll p down start nowMs).prov = (wifiProvPoll p.prov down start nowMs).1 := by
  unfold portalPoll wifiProvPoll
  simp only
  generalize (if (provButton p.prov.ctx down nowMs).2 = .none then
    provTick (provButton p.prov.ctx down nowMs).1 nowMs else provButton p.prov.ctx down nowMs) = acted
  rcases acted with ⟨ctx, action⟩
  cases action with
  | none => rfl
  | closeAp => simp [Portal.unnamed, Portal.withCtx, portalStop_prov]
  | openAp =>
    obtain ⟨hprov, hflag⟩ := portalStart_prov (p.withCtx ctx) start
    have hctx : (p.withCtx ctx).prov = { p.prov with ctx := ctx } := rfl
    rw [hctx] at hprov hflag
    by_cases hok : (portalStart (p.withCtx ctx) start).2 = true
    · simp only
      rw [if_pos hok, if_pos (hflag.symm.trans hok)]
      exact hprov
    · simp only
      rw [if_neg hok, if_neg fun h => hok (hflag.trans h), ← hprov]
      rfl

/-- With its cookie left out the portal is `wifi_prov.c`. -/
theorem portalTick_prov :
    (portalTick p down start nowMs).prov = (wifiProvTick p.prov down start nowMs).1 := by
  unfold portalTick wifiProvTick
  split
  next =>
    simp only
    split
    next => simp [Portal.unnamed, portalStop_prov]
    next => rw [portalPoll_prov]
  next => exact portalPoll_prov p start down nowMs

end

end GateAccess
