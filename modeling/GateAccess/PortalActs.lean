import GateAccess.PortalAccess

namespace GateAccess

/-- The header of the request an event answers. -/
def PortalEvent.cookie (p : Portal) : PortalEvent → Option (List UInt8)
  | .request req _ _ => req.cookie
  | .verified _ _ => p.verifying.bind Prod.snd
  | .tick _ _ _ => none

/-- The admin's own request, and what it did. -/
def AdminAsked (cfg : PortalCfg) (before : List PortalEvent) (req : HttpReq) (drawn : Bytes 16)
    (nowMs : UInt32) (acts : List PortalAct) : Prop :=
  (portalCall cfg (portalRun cfg before) (.request req drawn nowMs)).2 = acts ∧
    (portalRun cfg before).authenticated req.cookie = true

/-- The admin posted a form in which `wifi_post` reads these credentials, and nothing was done since. -/
def Tried (cfg : PortalCfg) (events : List PortalEvent) (creds : ProvCreds)
    (cookie : Option (List UInt8)) : Prop :=
  ∃ before req drawn nowMs since, events = before ++ .request req drawn nowMs :: since ∧
    AdminAsked cfg before req drawn nowMs [.tryNetwork creds] ∧
    wifiPost (req.form true) = .tries creds ∧ req.cookie = cookie ∧
    ∀ p ∈ trace (portalStep cfg) (portalRun cfg (before ++ [.request req drawn nowMs])) since,
      (portalCall cfg p.1 p.2).2 = []

section

variable (p : Portal) (down : Bool) (start : ApStart) (nowMs : UInt32)

@[simp] theorem portalStop_verifying : (portalStop p).verifying = p.verifying := by
  unfold portalStop
  split <;> rfl

@[simp] theorem portalStart_verifying : (portalStart p start).1.verifying = p.verifying := by
  unfold portalStart
  split
  next => rfl
  next =>
    cases start.linkUp with
    | none => rfl
    | some ssid => cases start.httpStarts <;> rfl

theorem portalPoll_verifying : (portalPoll p down start nowMs).verifying = p.verifying := by
  unfold portalPoll
  simp only
  generalize (if (provButton p.prov.ctx down nowMs).2 = .none then
    provTick (provButton p.prov.ctx down nowMs).1 nowMs else provButton p.prov.ctx down nowMs) = acted
  rcases acted with ⟨ctx, action⟩
  cases action with
  | none => rfl
  | closeAp => exact portalStop_verifying _
  | openAp =>
    simp only
    split
    next => exact portalStart_verifying _ start
    next => exact portalStart_verifying _ start

theorem portalTick_verifying : (portalTick p down start nowMs).verifying = p.verifying := by
  unfold portalTick
  split
  next =>
    simp only
    split
    next => exact portalStop_verifying _
    next => exact portalPoll_verifying _ down start nowMs
  next => exact portalPoll_verifying p down start nowMs

end

/-- While a form is being verified nothing else is done. -/
theorem idle_while_verifying {cfg : PortalCfg} {p : Portal} {event : PortalEvent}
    (h : (portalStep cfg p event).verifying.isSome = true) (hwas : p.verifying.isSome = true) :
    (portalCall cfg p event).2 = [] ∧ (portalStep cfg p event).verifying = p.verifying := by
  cases event with
  | tick down start nowMs => exact ⟨rfl, portalTick_verifying p down start nowMs⟩
  | request req drawn nowMs =>
    have hserves : ¬p.serves = true := by
      rw [Portal.serves, Bool.and_eq_true, Option.isNone_iff_eq_none]
      rintro ⟨-, hnone⟩
      rw [hnone] at hwas
      cases hwas
    simp only [portalStep, portalCall, if_neg hserves, and_self]
  | verified joined err =>
    exfalso
    simp only [portalStep, portalCall, wifiPostVerified] at h
    split at h
    next hnone =>
      rw [hnone] at hwas
      cases hwas
    next => split_ifs at h <;> cases h

/-- What is being verified is what the admin posted last. -/
theorem tried_of_verifying {cfg : PortalCfg} {events : List PortalEvent} {creds : ProvCreds}
    {cookie : Option (List UInt8)} (h : (portalRun cfg events).verifying = some (creds, cookie)) :
    Tried cfg events creds cookie := by
  induction events using List.reverseRecOn with
  | nil => cases h
  | append_singleton events event ih =>
    rw [portalRun, exec_concat] at h
    by_cases hwas : (portalRun cfg events).verifying.isSome = true
    · obtain ⟨hidle, hsame⟩ := idle_while_verifying (by rw [h]; rfl) hwas
      obtain ⟨before, req, drawn, nowMs, since, rfl, hasked, hform, hcookie, hsince⟩ := ih (hsame ▸ h)
      refine ⟨before, req, drawn, nowMs, since ++ [event], by simp, hasked, hform, hcookie, ?_⟩
      simp only [trace_concat, List.mem_append, List.mem_singleton, or_imp, forall_and, forall_eq]
      refine ⟨hsince, ?_⟩
      rw [← exec_append, List.append_assoc, List.singleton_append]
      exact hidle
    · rw [Option.not_isSome_iff_eq_none] at hwas
      cases event with
      | tick down start nowMs =>
        have hsame : (portalStep cfg (portalRun cfg events) (.tick down start nowMs)).verifying =
            (portalRun cfg events).verifying := portalTick_verifying ..
        rw [hsame, hwas] at h
        cases h
      | verified joined err =>
        simp only [portalStep, portalCall, wifiPostVerified, hwas] at h
        cases h
      | request req drawn nowMs =>
        by_cases hserves : (portalRun cfg events).serves = true
        · have hcall : portalCall cfg (portalRun cfg events) (.request req drawn nowMs) =
              handleRequest cfg (portalRun cfg events) req drawn nowMs := if_pos hserves
          have hs := handleRequest_step cfg (portalRun cfg events) req drawn nowMs
          rw [portalStep, hcall] at h
          rw [← hcall] at hs h
          generalize hout : portalCall cfg (portalRun cfg events) (.request req drawn nowMs) = out at hs h
          cases hs with
          | tries creds' hroute hauth hform =>
            obtain ⟨rfl, rfl⟩ := Prod.mk.inj (Option.some.inj h)
            exact ⟨events, req, drawn, nowMs, [], rfl, ⟨by rw [hout], hauth⟩, hform, rfl, by simp⟩
          | served | loggedIn | notLoggedIn | loggedOut | finished =>
            have hnone : (portalRun cfg events).verifying = some (creds, cookie) := h
            rw [hwas] at hnone
            cases hnone
        · simp only [portalStep, portalCall, if_neg hserves, hwas] at h
          cases h

/-- What the answer of the radio lets `wifi_post` do. -/
theorem wifiPostVerified_acts {p : Portal} {joined : Bool} {err : UInt32} {act : PortalAct}
    (h : act ∈ (wifiPostVerified p joined err).2) (hact : act.privileged = true) :
    ∃ creds cookie, p.verifying = some (creds, cookie) ∧
      ((act = .save creds ∧ joined = true) ∨
        (act = .staStart ∧ joined = true ∧ err = 0 ∧
          ∃ rest, (wifiPostVerified p joined err).2 = .save creds :: .staStart :: rest) ∨
        (act = .scan ∨ ∃ page, act = sendPage page) ∧ p.authenticated cookie = true) := by
  cases hverifying : p.verifying with
  | none =>
    rw [wifiPostVerified, hverifying] at h
    cases h
  | some tried =>
    obtain ⟨creds, cookie⟩ := tried
    refine ⟨creds, cookie, rfl, ?_⟩
    have hpage : ∀ message, act ∈ wifiPageActs { p with verifying := none } cookie message →
        (act = .scan ∨ ∃ page, act = sendPage page) ∧ p.authenticated cookie = true :=
      fun message hmem => wifiPageActs_privileged hmem hact
    cases joined with
    | false =>
      simp only [wifiPostVerified, hverifying, Bool.not_false, if_true] at h
      exact .inr (.inr (hpage _ h))
    | true =>
      have hacts : (wifiPostVerified p true err).2 = if err = 0 then
          .save creds :: .staStart :: wifiPageActs { p with verifying := none } cookie
            (WifiMessage.saved creds.name).text
          else .save creds :: wifiPageActs { p with verifying := none } cookie
            (WifiMessage.notSaved err).text := by
        simp only [wifiPostVerified, hverifying, Bool.not_true, Bool.false_eq_true, if_false]
        split <;> rfl
      rw [hacts] at h ⊢
      by_cases hsaved : err = 0
      · rw [if_pos hsaved] at h ⊢
        rcases List.mem_cons.mp h with rfl | h
        · exact .inl ⟨rfl, rfl⟩
        rcases List.mem_cons.mp h with rfl | h
        · exact .inr (.inl ⟨rfl, rfl, hsaved, _, rfl⟩)
        · exact .inr (.inr (hpage _ h))
      · rw [if_neg hsaved] at h
        rcases List.mem_cons.mp h with rfl | h
        · exact .inl ⟨rfl, rfl⟩
        · exact .inr (.inr (hpage _ h))

/-- What a request gets that only the admin may have. -/
theorem request_acts {cfg : PortalCfg} {p : Portal} {req : HttpReq} {drawn : Bytes 16}
    {nowMs : UInt32} {act : PortalAct}
    (h : act ∈ (portalCall cfg p (.request req drawn nowMs)).2) (hact : act.privileged = true) :
    act ≠ .staStart ∧ (∀ creds, act ≠ .save creds) ∧ p.authenticated req.cookie = true := by
  rw [portalCall] at h
  split at h
  next =>
    have hs := handleRequest_step cfg p req drawn nowMs
    generalize handleRequest cfg p req drawn nowMs = out at hs h
    cases hs with
    | served acts _ _ hacts =>
      obtain ⟨hkind, hauth⟩ := hacts act h hact
      rcases hkind with rfl | ⟨page, rfl⟩
      · exact ⟨by simp, by simp, hauth⟩
      · exact ⟨by simp [sendPage], by simp [sendPage], hauth⟩
    | loggedIn _ _ _ _ hplain | notLoggedIn _ _ _ _ _ hplain | loggedOut _ _ hplain =>
      rw [List.mem_singleton.mp h, hplain] at hact
      cases hact
    | finished _ hauth =>
      rcases List.mem_pair.mp h with rfl | rfl
      · exact ⟨by simp [sendPage], by simp [sendPage], hauth⟩
      · exact ⟨by simp, by simp, hauth⟩
    | tries creds _ hauth _ =>
      rw [List.mem_singleton] at h
      subst h
      exact ⟨by simp, by simp, hauth⟩
  next => cases h

/-- Whatever only the admin may have is done for a request that presents the sid of the login in
force. What is stored is what `wifi_post` read in the form of such a request, once the test of just
these credentials has been reported to succeed; and the station is restarted only behind a save of
such credentials that went well. -/
theorem admin_acts (cfg : PortalCfg) (events : List PortalEvent) (event : PortalEvent) :
    (∀ act ∈ (portalCall cfg (portalRun cfg events) event).2, act.privileged = true →
      act ≠ .staStart → (∀ creds, act ≠ .save creds) →
      ∃ drawn, Issued cfg events drawn ∧
        Presents (event.cookie (portalRun cfg events)) (hexText drawn.toList)) ∧
    (∀ creds, .save creds ∈ (portalCall cfg (portalRun cfg events) event).2 →
      (∃ err, event = .verified true err) ∧
        Tried cfg events creds (event.cookie (portalRun cfg events))) ∧
    (.staStart ∈ (portalCall cfg (portalRun cfg events) event).2 →
      event = .verified true 0 ∧
        ∃ creds rest, (portalCall cfg (portalRun cfg events) event).2 =
            .save creds :: .staStart :: rest ∧
          Tried cfg events creds (event.cookie (portalRun cfg events))) := by
  cases event with
  | tick down start nowMs =>
    have hnone : (portalCall cfg (portalRun cfg events) (.tick down start nowMs)).2 = [] := rfl
    simp [hnone]
  | request req drawn nowMs =>
    refine ⟨fun act hact hpriv _ _ => ?_, fun creds hsave => ?_, fun hstart => ?_⟩
    · exact issued_presented (request_acts hact hpriv).2.2
    · exact absurd rfl ((request_acts hsave rfl).2.1 creds)
    · exact absurd rfl (request_acts hstart rfl).1
  | verified joined err =>
    refine ⟨fun act hact hpriv hnostart hnosave => ?_, fun creds hsave => ?_, fun hstart => ?_⟩
    · obtain ⟨creds, cookie, hverifying, hkind⟩ := wifiPostVerified_acts hact hpriv
      rcases hkind with ⟨hsave, -⟩ | ⟨hstart, -⟩ | ⟨-, hauth⟩
      · exact absurd hsave (hnosave creds)
      · exact absurd hstart hnostart
      · rw [PortalEvent.cookie, hverifying]
        exact issued_presented hauth
    · obtain ⟨creds', cookie, hverifying, hkind⟩ := wifiPostVerified_acts hsave rfl
      rcases hkind with ⟨hsame, rfl⟩ | ⟨hstart, -⟩ | ⟨hscan | ⟨page, hpage⟩, -⟩
      · obtain rfl := PortalAct.save.inj hsame
        rw [PortalEvent.cookie, hverifying]
        exact ⟨⟨err, rfl⟩, tried_of_verifying hverifying⟩
      · cases hstart
      · cases hscan
      · cases hpage
    · obtain ⟨creds, cookie, hverifying, hkind⟩ := wifiPostVerified_acts hstart rfl
      rcases hkind with ⟨hsave, -⟩ | ⟨-, rfl, rfl, rest, hacts⟩ | ⟨hscan | ⟨page, hpage⟩, -⟩
      · cases hsave
      · rw [PortalEvent.cookie, hverifying]
        exact ⟨rfl, creds, rest, hacts, tried_of_verifying hverifying⟩
      · cases hscan
      · cases hpage

/-- A portal whose web server matches a path with a route by its text, or by its start where the route
ends in a star. -/
def benchPortal : PortalCfg where
  adminUser := ascii "admin"
  adminPassword := ascii "senha-do-portao"
  uriMatch template path :=
    if template.getLast? = some 42 then template.dropLast.isPrefixOf path else template = path

def openedSession : List PortalEvent :=
  [.tick true ⟨none, false⟩ 0, .tick true ⟨some (ascii "PORTAO-A1B2C3"), true⟩ 5000]

def postedLogin (form : String) : PortalEvent :=
  .request ⟨.post, ascii "/login", none, ascii form, (ascii form).length⟩ (zeros 16) 6000

def zeroSid : Option (List UInt8) := some (ascii "a=1; sid=00000000000000000000000000000000")

/-- A network that the admin posts, the radio joins and NVS takes. -/
example :
    let creds : ProvCreds := ⟨fill _ (ascii "portaria"), fill _ (ascii "senha-nova")⟩
    let asked := openedSession ++ [postedLogin "u=admin&p=senha-do-portao",
      .request ⟨.post, ascii "/wifi", zeroSid, ascii "ssid=portaria&psk=senha-nova", 28⟩ (zeros 16) 7000]
    (portalCall benchPortal (portalRun benchPortal asked) (.verified true 0)).2.take 2 =
      [.save creds, .staStart] := by
  decide +kernel

end GateAccess
