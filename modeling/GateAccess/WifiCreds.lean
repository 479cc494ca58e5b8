import GateAccess.CBytes

namespace GateAccess

def provSsidMax : Nat := 32
def provPskMin : Nat := 8
def provPskMax : Nat := 63

inductive ProvResult
  | ok
  | ssidEmpty
  | ssidLong
  | ssidControl
  | pskShort
  | pskLong
  | pskControl
  deriving DecidableEq

/-- `is_printable_ascii` from a position on, with the length counted so far; none for its false. -/
def isPrintableAscii : List UInt8 → Nat → Option Nat
  | [], n => some n
  | p :: s, n =>
    if p = 0 then some n
    else if p < 0x20 || p = 0x7f then none
    else isPrintableAscii s (n + 1)

def provCheckSsid (ssid : Option (List UInt8)) : ProvResult :=
  match ssid with
  | none => .ssidEmpty
  | some ssid =>
    if ssid.headD 0 = 0 then .ssidEmpty
    else
      match isPrintableAscii ssid 0 with
      | none => .ssidControl
      | some n => if n > provSsidMax then .ssidLong else .ok

def isHexChar (c : UInt8) : Bool := 48 ≤ c && c ≤ 57 || 97 ≤ c && c ≤ 102 || 65 ≤ c && c ≤ 70

def isHex64 (s : List UInt8) (n : Nat) : Bool := n = 64 && (s.take n).all isHexChar

def provCheckPsk (psk : Option (List UInt8)) (openNetwork : Bool) : ProvResult :=
  let psk := psk.getD []
  match isPrintableAscii psk 0 with
  | none => .pskControl
  | some n =>
    if openNetwork then if n = 0 then .ok else .pskLong
    else if isHex64 psk n then .ok
    else if n < provPskMin then .pskShort
    else if n > provPskMax then .pskLong
    else .ok

def provResultText : ProvResult → List UInt8
  | .ok => ascii "ok"
  | .ssidEmpty => ascii "pick a network, or type a name for a hidden one"
  | .ssidLong => ascii "network name is longer than 32 characters"
  | .ssidControl => ascii "network name contains control characters"
  | .pskShort => ascii "password is shorter than 8 characters"
  | .pskLong => ascii "password is longer than 63 characters"
  | .pskControl => ascii "password contains control characters"

inductive WifiAuth
  | open
  | wpaPsk
  deriving DecidableEq

/-- The station part of the `wifi_config_t` that the driver is handed. -/
structure StaConfig where
  ssid : Bytes 32
  password : Bytes 64
  authmode : WifiAuth
  deriving DecidableEq

def staConfigure (ssid : List UInt8) (psk : Option (List UInt8)) : StaConfig :=
  ⟨snprintf 32 ssid, snprintf 64 (psk.getD []),
    match psk with
    | none => .open
    | some psk => if psk.headD 0 ≠ 0 then .wpaPsk else .open⟩

/-- The driver reads back both strings byte for byte. -/
def StaConfig.Holds (cfg : StaConfig) (ssid : List UInt8) (psk : Option (List UInt8)) : Prop :=
  cstr cfg.ssid.toList = cstr ssid ∧ cstr cfg.password.toList = cstr (psk.getD [])

instance (cfg : StaConfig) (ssid : List UInt8) (psk : Option (List UInt8)) :
    Decidable (cfg.Holds ssid psk) := inferInstanceAs (Decidable (_ ∧ _))

/-- The scan counts the string up to its NUL. -/
theorem isPrintableAscii_length {s : List UInt8} {k n : Nat} (h : isPrintableAscii s k = some n) :
    n = k + (cstr s).length := by
  induction s generalizing k with
  | nil => simpa [isPrintableAscii, cstr, eq_comm] using h
  | cons p s ih =>
    rw [isPrintableAscii] at h
    rw [cstr_cons]
    split_ifs at h with hzero hcontrol
    · simpa [hzero, eq_comm] using h
    · have hn := ih h
      rw [if_neg hzero, List.length_cons]
      omega

theorem provCheckSsid_length {ssid : List UInt8} (h : provCheckSsid (some ssid) = .ok) :
    (cstr ssid).length ≤ 32 := by
  rw [provCheckSsid] at h
  split_ifs at h with hempty
  split at h
  next => cases h
  next n hscan =>
    have hn := isPrintableAscii_length hscan
    split_ifs at h with hlong
    unfold provSsidMax at hlong
    omega

theorem provCheckPsk_length {psk : Option (List UInt8)} {openNetwork : Bool}
    (h : provCheckPsk psk openNetwork = .ok) : (cstr (psk.getD [])).length ≤ 64 := by
  cases hscan : isPrintableAscii (psk.getD []) 0 with
  | none => simp [provCheckPsk, hscan] at h
  | some n =>
    have hn := isPrintableAscii_length hscan
    simp only [provCheckPsk, hscan] at h
    split_ifs at h with hopen hzero hhex hshort hlong
    · omega
    · have h64 : n = 64 := by simpa using (Bool.and_eq_true_iff.mp hhex).1
      omega
    · unfold provPskMax at hlong
      omega

/-- Of what both checks pass the driver gets all but the last byte of a name or a raw key that fills
its field. -/
theorem accepted_configured_iff (ssid : List UInt8) (psk : Option (List UInt8)) (openNetwork : Bool)
    (hssid : provCheckSsid (some ssid) = .ok) (hpsk : provCheckPsk psk openNetwork = .ok) :
    (staConfigure ssid psk).Holds ssid psk ↔
      (cstr ssid).length ≠ 32 ∧ (cstr (psk.getD [])).length ≠ 64 := by
  have hname := provCheckSsid_length hssid
  have hkey := provCheckPsk_length hpsk
  unfold StaConfig.Holds staConfigure
  rw [cstr_snprintf_iff, cstr_snprintf_iff]
  omega

theorem accepted_configured_home :
    (staConfigure (ascii "casa-wifi") (some (ascii "12345678"))).Holds (ascii "casa-wifi")
      (some (ascii "12345678")) :=
  (accepted_configured_iff (ascii "casa-wifi") (some (ascii "12345678")) false (by decide)
    (by decide)).mpr (by decide)

/-- The longest name and the raw key both pass, and both lose their last character. -/
theorem longest_accepted_cut :
    provCheckSsid (some (ascii "12345678901234567890123456789012")) = .ok ∧
      provCheckPsk (some (List.replicate 64 97)) false = .ok ∧
      ¬(staConfigure (ascii "12345678901234567890123456789012") (some (ascii "12345678"))).Holds
        (ascii "12345678901234567890123456789012") (some (ascii "12345678")) ∧
      ¬(staConfigure (ascii "casa-wifi") (some (List.replicate 64 97))).Holds (ascii "casa-wifi")
        (some (List.replicate 64 97)) := by
  decide +kernel

end GateAccess
