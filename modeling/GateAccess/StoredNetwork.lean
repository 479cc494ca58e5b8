import GateAccess.PortalActs
import GateAccess.ProvNvs

namespace GateAccess

/-- The portal, its events since power-up, which no code reads, and what NVS holds. -/
structure NetworkLife where
  portal : Portal
  since : List PortalEvent
  nvs : Nvs

/-- What happens to the portal, with NVS's answers in place of what `prov_nvs_save` returns; and a
restart, which may cut a save short. -/
inductive NetworkEvent
  | tick (down : Bool) (start : ApStart) (nowMs : UInt32)
  | request (req : HttpReq) (drawn : Bytes 16) (nowMs : UInt32)
  | verified (joined : Bool) (turn : NvsTurn)
  | restart

def PortalAct.saved : PortalAct → Option ProvCreds
  | .save creds => some creds
  | _ => none

@[simp] theorem save_saved (creds : ProvCreds) : (PortalAct.save creds).saved = some creds := rfl

@[simp] theorem staStart_saved : PortalAct.staStart.saved = none := rfl

variable (cfg : PortalCfg)

def portalMove (s : NetworkLife) (e : PortalEvent) : NetworkLife :=
  { s with portal := portalStep cfg s.portal e, since := s.since ++ [e] }

/-- What a save of the credentials under test would answer. -/
def saveAnswer (s : NetworkLife) (turn : NvsTurn) : UInt32 :=
  (s.portal.verifying.map fun tested => (provNvsSave s.nvs tested.1 turn).2).getD 0

def networkStep (s : NetworkLife) : NetworkEvent → NetworkLife
  | .tick down start nowMs => portalMove cfg s (.tick down start nowMs)
  | .request req drawn nowMs => portalMove cfg s (.request req drawn nowMs)
  | .verified joined turn =>
    let e := PortalEvent.verified joined (saveAnswer s turn)
    { portalMove cfg s e with
      nvs := ((portalCall cfg s.portal e).2.filterMap PortalAct.saved).foldl
        (fun nvs creds => (provNvsSave nvs creds turn).1) s.nvs }
  | .restart => ⟨portalInit, [], s.nvs⟩

/-- A gate that has never been provisioned. -/
abbrev networkRun (life : List NetworkEvent) : NetworkLife :=
  exec (networkStep cfg) ⟨portalInit, [], fun _ => none⟩ life

/-- What a step saves, and how NVS answers. -/
def savesAt (s : NetworkLife) : NetworkEvent → List (ProvCreds × NvsTurn)
  | .verified true turn => s.portal.verifying.toList.map fun tested => (tested.1, turn)
  | _ => []

def savesOver (life : List NetworkEvent) : List (ProvCreds × NvsTurn) :=
  logOf (networkStep cfg) savesAt ⟨portalInit, [], fun _ => none⟩ life

/-- `wifi_post` read these credentials in a form of the admin's, and the test of them was reported to
succeed. -/
def Proven (life : List NetworkEvent) (creds : ProvCreds) : Prop :=
  ∃ before turn after cookie, life = before ++ .verified true turn :: after ∧
    Tried cfg (networkRun cfg before).since creds cookie

/-- Every call of the save answers `ESP_OK`. -/
def NvsTurn.Whole (t : NvsTurn) : Prop := t.openErr = 0 ∧ t.err = 0

variable {cfg}

theorem wifiPageActs_saved (p : Portal) (cookie : Option (List UInt8)) (message : List UInt8) :
    (wifiPageActs p cookie message).filterMap PortalAct.saved = [] := by
  unfold wifiPageActs
  split <;> rfl

/-- The portal saves what it has under test when the radio has joined, and nothing else. -/
theorem verified_saved (p : Portal) (joined : Bool) (err : UInt32) :
    (wifiPostVerified p joined err).2.filterMap PortalAct.saved =
      if joined then p.verifying.toList.map Prod.fst else [] := by
  unfold wifiPostVerified
  cases p.verifying with
  | none => simp
  | some tested =>
    obtain ⟨creds, cookie⟩ := tested
    cases joined with
    | false => simpa using wifiPageActs_saved { p with verifying := none } cookie _
    | true =>
      by_cases herr : err = 0
      · simp only [herr, Bool.not_true, Bool.false_eq_true, if_true, if_false, List.filterMap_cons,
          save_saved, staStart_saved, wifiPageActs_saved]
        rfl
      · simp only [herr, Bool.not_true, Bool.false_eq_true, if_true, if_false, List.filterMap_cons,
          save_saved, wifiPageActs_saved]
        rfl

theorem networkStep_nvs (s : NetworkLife) (e : NetworkEvent) :
    (networkStep cfg s e).nvs =
      (savesAt s e).foldl (fun nvs save => (provNvsSave nvs save.1 save.2).1) s.nvs := by
  cases e with
  | verified joined turn =>
    simp only [networkStep, portalMove, portalCall, verified_saved]
    cases joined with
    | false => rfl
    | true =>
      rw [savesAt, List.foldl_map, if_pos rfl, List.foldl_map]
  | _ => rfl

/-- NVS holds what the saves, one after the other, have made of it. -/
theorem networkRun_nvs (life : List NetworkEvent) :
    (networkRun cfg life).nvs =
      (savesOver cfg life).foldl (fun nvs save => (provNvsSave nvs save.1 save.2).1) fun _ => none := by
  induction life using List.reverseRecOn with
  | nil => rfl
  | append_singleton life e ih =>
    rw [networkRun, exec_concat, networkStep_nvs, savesOver, logOf_append, List.foldl_append, ← savesOver,
      ← ih]
    simp [logOf]

/-- The portal of a life is that of its events since the last restart. -/
theorem networkRun_portal (life : List NetworkEvent) :
    (networkRun cfg life).portal = portalRun cfg (networkRun cfg life).since := by
  refine exec_invariant (I := fun s : NetworkLife => s.portal = portalRun cfg s.since) ?_ rfl life
  intro s e h
  have hmove : ∀ ev, portalStep cfg s.portal ev = portalRun cfg (s.since ++ [ev]) := fun ev =>
    (congrArg (portalStep cfg · ev) h).trans (exec_concat _ _ _ _).symm
  cases e with
  | restart => rfl
  | _ => exact hmove _

theorem savesOver_proven {life : List NetworkEvent} {save : ProvCreds × NvsTurn}
    (h : save ∈ savesOver cfg life) : Proven cfg life save.1 := by
  obtain ⟨⟨s, e⟩, hmem, hsave⟩ := mem_logOf h
  obtain ⟨before, after, hlife, rfl⟩ := mem_trace hmem
  cases e with
  | verified joined turn =>
    cases joined with
    | false => cases hsave
    | true =>
      obtain ⟨⟨creds, cookie⟩, htested, rfl⟩ := List.mem_map.mp hsave
      refine ⟨before, turn, after, cookie, hlife, tried_of_verifying ?_⟩
      rw [← networkRun_portal]
      exact Option.mem_toList.mp htested
  | _ => cases hsave

/-- What the form passes to the radio has passed the checks. -/
theorem wifiPost_checked {req : HttpPost} {creds : ProvCreds} (h : wifiPost req = .tries creds) :
    creds.check = .ok := by
  unfold wifiPost at h
  split_ifs at h
  cases hbody : readBody req bodyMax with
  | none =>
    rw [hbody] at h
    cases h
  | some body =>
    simp only [hbody] at h
    split_ifs at h with hcheck
    obtain rfl := WifiPost.tries.inj h
    exact not_not.mp hcheck

theorem Tried.checked {events : List PortalEvent} {creds : ProvCreds} {cookie : Option (List UInt8)}
    (h : Tried cfg events creds cookie) : creds.check = .ok := by
  obtain ⟨before, req, drawn, nowMs, since, -, -, hform, -⟩ := h
  exact wifiPost_checked hform

/-- What NVS holds under a key went through one of the saves. -/
theorem savedKey {saves : List (ProvCreds × NvsTurn)} {key : NvsKey} {text : List UInt8}
    (h : saves.foldl (fun nvs save => (provNvsSave nvs save.1 save.2).1) (fun _ => none) key = some text) :
    ∃ save ∈ saves, text = save.1.text key := by
  induction saves using List.reverseRecOn with
  | nil => cases h
  | append_singleton saves save ih =>
    rw [List.foldl_append, List.foldl_cons, List.foldl_nil] at h
    rcases provNvsSave_key (saves.foldl (fun nvs save => (provNvsSave nvs save.1 save.2).1) fun _ => none)
      save.1 save.2 key with hnew | hold
    · rw [hnew] at h
      exact ⟨save, by simp, (Option.some.inj h).symm⟩
    · rw [hold] at h
      obtain ⟨earlier, hmem, htext⟩ := ih h
      exact ⟨earlier, List.mem_append_left _ hmem, htext⟩

/-- A save that is cut between its two strings leaves the new name with the old passphrase. -/
example : provNvsLoad (provNvsSave
      (fun key => some ((⟨fill _ (ascii "casa"), fill _ (ascii "senha-antiga")⟩ : ProvCreds).text key))
      ⟨fill _ (ascii "portaria"), fill _ (ascii "senha-nova")⟩
      ⟨0, 0, 0x1105, 0, fun key => key = .ssid⟩).1 ⟨true, true, true⟩ =
    some (ascii "portaria", ascii "senha-antiga") := by decide

end GateAccess
