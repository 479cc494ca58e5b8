import GateAccess.WifiForm

namespace GateAccess

inductive NvsKey
  | ssid | psk
  deriving DecidableEq

/-- The namespace `gate_wifi`: the string under each of its keys. -/
abbrev Nvs := NvsKey → Option (List UInt8)

/-- What NVS answers to the calls of a save, zero for `ESP_OK`, and which of the strings it was given
it holds afterwards when not all of them go through. -/
structure NvsTurn where
  openErr : UInt32
  ssidErr : UInt32
  pskErr : UInt32
  commitErr : UInt32
  stands : NvsKey → Bool

/-- The error `prov_nvs_save` ends with once the namespace is open. -/
def NvsTurn.err (t : NvsTurn) : UInt32 :=
  let err := t.ssidErr
  let err := if err = 0 then t.pskErr else err
  if err = 0 then t.commitErr else err

/-- The passphrase is handed over only if the name was taken. -/
def NvsTurn.given (t : NvsTurn) : NvsKey → Bool
  | .ssid => true
  | .psk => t.ssidErr = 0

def ProvCreds.text (creds : ProvCreds) : NvsKey → List UInt8
  | .ssid => cstr creds.ssid.toList
  | .psk => cstr creds.psk.toList

def provNvsSave (nvs : Nvs) (creds : ProvCreds) (t : NvsTurn) : Nvs × UInt32 :=
  if t.openErr ≠ 0 then (nvs, t.openErr)
  else
    (fun key => if t.err = 0 || (t.given key && t.stands key) then some (creds.text key) else nvs key,
      t.err)

/-- Whether NVS answers the calls of a load. -/
structure NvsReads where
  openOk : Bool
  ssidOk : Bool
  pskOk : Bool

/-- `nvs_get_str` into a buffer of this size. -/
def nvsGetStr (stored : Option (List UInt8)) (size : Nat) (ok : Bool) : Option (List UInt8) :=
  stored.filter fun text => ok && text.length < size

def provNvsLoad (nvs : Nvs) (t : NvsReads) : Option (List UInt8 × List UInt8) :=
  if !t.openOk then none
  else
    match nvsGetStr (nvs .ssid) (provNvsSsidMax + 1) t.ssidOk with
    | none => none
    | some ssid =>
      let psk := (nvsGetStr (nvs .psk) (provNvsPskMax + 1) t.pskOk).getD []
      if ssid.headD 0 ≠ 0 then some (ssid, psk) else none

/-- A save answers `ESP_OK` when every call of it does. -/
theorem provNvsSave_ok {nvs : Nvs} {creds : ProvCreds} {t : NvsTurn}
    (h : (provNvsSave nvs creds t).2 = 0) :
    (provNvsSave nvs creds t).1 = fun key => some (creds.text key) := by
  unfold provNvsSave at h ⊢
  split_ifs at h ⊢ with hopen
  · exact absurd h hopen
  · funext key
    have herr : t.err = 0 := h
    simp [herr]

/-- Whatever becomes of a save, a key holds the new string or what it held. -/
theorem provNvsSave_key (nvs : Nvs) (creds : ProvCreds) (t : NvsTurn) (key : NvsKey) :
    (provNvsSave nvs creds t).1 key = some (creds.text key) ∨
      (provNvsSave nvs creds t).1 key = nvs key := by
  unfold provNvsSave
  split
  · exact .inr rfl
  · dsimp only
    split
    · exact .inl rfl
    · exact .inr rfl

theorem nvsGetStr_some {stored : Option (List UInt8)} {size : Nat} {ok : Bool} {text : List UInt8}
    (h : nvsGetStr stored size ok = some text) : stored = some text :=
  (Option.filter_eq_some_iff.mp h).1

theorem provNvsLoad_some {nvs : Nvs} {t : NvsReads} {ssid psk : List UInt8}
    (h : provNvsLoad nvs t = some (ssid, psk)) :
    nvs .ssid = some ssid ∧ (psk = [] ∨ nvs .psk = some psk) := by
  unfold provNvsLoad at h
  split at h
  · cases h
  split at h
  next => cases h
  next name hname =>
    dsimp only at h
    split at h
    · obtain ⟨rfl, rfl⟩ := Prod.mk.inj (Option.some.inj h)
      refine ⟨nvsGetStr_some hname, ?_⟩
      cases hkey : nvsGetStr (nvs .psk) (provNvsPskMax + 1) t.pskOk with
      | none => exact .inl rfl
      | some text => exact .inr (nvsGetStr_some hkey)
    · cases h

/-- What the checks of the form pass comes back from NVS as it went in. -/
theorem provNvsLoad_stored {creds : ProvCreds} (h : creds.check = .ok) :
    provNvsLoad (fun key => some (creds.text key)) ⟨true, true, true⟩ =
      some (creds.text .ssid, creds.text .psk) := by
  have hssid : provCheckSsid (some creds.ssid.toList) = .ok := by
    unfold ProvCreds.check at h
    by_contra hbad
    rw [if_neg hbad] at h
    exact hbad h
  have hpsk : provCheckPsk (some creds.psk.toList) (decide (creds.psk.toList.headD 0 = 0)) = .ok := by
    rw [ProvCreds.check, if_pos hssid] at h
    exact h
  have hname : nvsGetStr (some (creds.text .ssid)) (provNvsSsidMax + 1) true = some (creds.text .ssid) := by
    have hshort : (creds.text .ssid).length < provNvsSsidMax + 1 :=
      Nat.lt_succ_of_le (provCheckSsid_length hssid)
    simp only [nvsGetStr, Option.filter_some, hshort, decide_true, Bool.and_self, if_true]
  have hkey : nvsGetStr (some (creds.text .psk)) (provNvsPskMax + 1) true = some (creds.text .psk) := by
    have hshort : (creds.text .psk).length < provNvsPskMax + 1 :=
      Nat.lt_succ_of_le (provCheckPsk_length hpsk)
    simp only [nvsGetStr, Option.filter_some, hshort, decide_true, Bool.and_self, if_true]
  have hne : (creds.text .ssid).headD 0 ≠ 0 := by
    have hfull := provCheckSsid_ne hssid
    rw [cstr_head, ProvCreds.text, cstr_cstr]
    exact hfull
  rw [provNvsLoad, if_neg (by simp), hname, hkey]
  exact if_pos hne

end GateAccess
